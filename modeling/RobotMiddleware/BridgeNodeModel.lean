import RobotMiddleware.BridgeModel
import RobotMiddleware.ThreadPoolModel
import RobotMiddleware.TopicBusSteps

/-! `export_topic` and `import_topic`: any number of bridges, the bus behind their nodes, and the
callbacks of their export subscriptions. A bridge acts on the bus and on its own tables in
different sections, so everything else can come in between. -/
namespace RobotMiddleware

/-- `MessageTraits` of every message type, and its serializer, which may throw. -/
structure MessageTraits {Ty : Type} (Val : Ty → Type) where
  typeId : Ty → BitVec 32
  schemaHash : Ty → BitVec 64
  serialize : ∀ τ, Val τ → Except String Bytes

namespace MessageTraits
variable {Ty : Type} {Val : Ty → Type}

/-- What `Node` registers a topic of `MessageT` with. -/
def contract (traits : MessageTraits Val) (τ : Ty) : TypeContract Ty :=
  ⟨traits.typeId τ, traits.schemaHash τ, τ⟩

def makeFrame (traits : MessageTraits Val) (topic : Bytes) (τ : Ty) (message : Val τ)
    (sequence publisherId now : BitVec 64) : Except String Frame := do
  let payload ← traits.serialize τ message
  RobotMiddleware.makeFrame topic ⟨traits.typeId τ, traits.schemaHash τ⟩ payload sequence
    publisherId now

end MessageTraits

/-- The members of a `NetworkBridge` that configuration and export use. An export canceller is
the number of the control block that it holds. -/
structure NetworkBridge where
  publisherId : BitVec 64
  nextSequence : BitVec 64 := 0
  outbound : ThreadSafeQueue Frame
  stopped : Bool := false
  exportTopics : List Bytes := []
  exportCancellers : List ℕ := []
  imports : AList (fun _ : Bytes => ImportRoute) := ∅
  exported : ℕ := 0
  outboundDropped : ℕ := 0

namespace NetworkBridge

def create (options : NetworkBridgeOptions) (defaultPublisherId : BitVec 64) :
    Except MiddlewareError NetworkBridge :=
  if options.outboundQueueDepth = 0 ∨ options.maxDedupEntries = 0 then
    .error ⟨"bridge queue depth and dedup entry limit must be greater than zero"⟩
  else
    .ok { publisherId := if options.publisherId = 0 then defaultPublisherId
            else options.publisherId
          outbound := { capacity := options.outboundQueueDepth } }

def stoppedError : MiddlewareError := ⟨"network bridge is stopped"⟩

def emptyNameError : MiddlewareError := ⟨"bridge topic names must not be empty"⟩

def requireConfigurable (b : NetworkBridge) : Except MiddlewareError Unit :=
  if b.stopped then .error stoppedError else .ok ()

def addExport (b : NetworkBridge) (remoteTopic : Bytes) (block : ℕ) :
    Except MiddlewareError NetworkBridge :=
  if b.stopped then .error stoppedError
  else if remoteTopic ∈ b.exportTopics then
    .error ⟨"bridge export topic is already registered: " ++ text remoteTopic⟩
  else
    .ok { b with
      exportTopics := b.exportTopics ++ [remoteTopic]
      exportCancellers := b.exportCancellers ++ [block] }

def addImport (b : NetworkBridge) (remoteTopic : Bytes) (route : ImportRoute) :
    Except MiddlewareError NetworkBridge :=
  if b.stopped then .error stoppedError
  else if (b.imports.lookup remoteTopic).isSome then
    .error ⟨"bridge import topic is already registered: " ++ text remoteTopic⟩
  else .ok { b with imports := b.imports.insert remoteTopic route }

end NetworkBridge

/-- What the callback of an export subscription captures, and its message type. -/
structure ExportLambda (Ty : Type) where
  bridge : ℕ
  networkTopic : Bytes
  localType : Ty
  deriving DecidableEq

/-- Where a thread is in the callback of an export subscription; outside of one it is `entered`,
where the next begins. -/
inductive LambdaState
  | entered
  | built (frame : Frame)
  | pushing (frame : Frame)
  | ended (threw : Bool)
  deriving DecidableEq

inductive ConfigureCall (Ty : Type)
  | none
  | subscribing (bridge : ℕ) (localTopic networkTopic : Bytes) (τ : Ty)
      (options : SubscriptionOptions)
  | registering (bridge : ℕ) (localTopic networkTopic : Bytes) (block : ℕ) (id : BitVec 64)
  | cancelling (localTopic : Bytes) (block : ℕ) (id : BitVec 64) (error : MiddlewareError)
  | unsubscribing (localTopic : Bytes) (block : ℕ) (id : BitVec 64) (error : MiddlewareError)
  | advertising (bridge : ℕ) (remoteTopic destination : Bytes) (τ : Ty)
  | routing (bridge : ℕ) (remoteTopic : Bytes) (τ : Ty)
  deriving DecidableEq

structure ExportedFrame (Tid : Type) {Ty : Type} (Val : Ty → Type) where
  block : ℕ
  publication : Publication Tid Val
  frame : Frame

/-- A bridge with what happened to it so far: the calls of `emit_frame`, the frames that the
outbound queue took and those that were taken out of it, and the number of sequences drawn. -/
structure BridgeState (Tid : Type) {Ty : Type} (Val : Ty → Type) where
  bridge : NetworkBridge
  emitted : List (ExportedFrame Tid Val) := []
  queued : List (ExportedFrame Tid Val) := []
  sent : List Frame := []
  draws : ℕ := 0

/-- `exports` are the control blocks that export subscriptions have, `released` those that
nothing but the bus refers to any more, and `returns` how the calls came back. -/
structure BridgeNodeState (Tid : Type) {Ty : Type} (Val : Ty → Type) where
  bus : BusState Tid Val := {}
  bridges : ℕ → BridgeState Tid Val
  exports : ℕ → Option (ExportLambda Ty) := fun _ => none
  released : List ℕ := []
  lambdas : Tid → LambdaState := fun _ => .entered
  calls : Tid → ConfigureCall Ty := fun _ => .none
  returns : List (Tid × Option MiddlewareError) := []

inductive BridgeNodeAction (Tid : Type) {Ty : Type} (Val : Ty → Type)
  | bus (a : BusAction Tid Val)
  | exportTopic (t : Tid) (bridge : ℕ) (localTopic remoteTopic : Bytes) (τ : Ty)
      (options : SubscriptionOptions)
  | createSubscription (t : Tid)
  | addExport (t : Tid)
  | cancelSubscription (t : Tid)
  | unsubscribe (t : Tid)
  | importTopic (t : Tid) (bridge : ℕ) (remoteTopic localTopic : Bytes) (τ : Ty)
  | createPublisher (t : Tid)
  | addImport (t : Tid)
  | makeFrame (t : Tid) (now : BitVec 64)
  | emitFrame (t : Tid)
  | push (t : Tid)
  | lambdaEnd (t : Tid)
  | take (bridge : ℕ)
  | stop (bridge : ℕ)
  | clearExports (bridge : ℕ)
  | closeOutbound (bridge : ℕ)

/-- The control block that the owner of its handle acts on. -/
def BusAction.handle {Tid Ty : Type} {Val : Ty → Type} : BusAction Tid Val → Option ℕ
  | .cancel _ block | .cancelAndWait _ block | .expire block => some block
  | _ => none

namespace ConfigureCall
variable {Ty : Type}

def idle : ConfigureCall Ty → Bool
  | .none => true
  | _ => false

end ConfigureCall

namespace BridgeNodeState
variable {Tid Ty : Type} {Val : Ty → Type} [DecidableEq Tid]

def setCall (s : BridgeNodeState Tid Val) (t : Tid) (call : ConfigureCall Ty) :
    BridgeNodeState Tid Val :=
  { s with calls := Function.update s.calls t call }

def return_ (s : BridgeNodeState Tid Val) (t : Tid) (result : Option MiddlewareError) :
    BridgeNodeState Tid Val :=
  { s.setCall t .none with returns := s.returns ++ [(t, result)] }

def setLambda (s : BridgeNodeState Tid Val) (t : Tid) (state : LambdaState) :
    BridgeNodeState Tid Val :=
  { s with lambdas := Function.update s.lambdas t state }

def setBridge (s : BridgeNodeState Tid Val) (i : ℕ) (state : BridgeState Tid Val) :
    BridgeNodeState Tid Val :=
  { s with bridges := Function.update s.bridges i state }

/-- The export subscription whose callback runs on the thread, and the message it got. -/
def inLambda (s : BridgeNodeState Tid Val) (t : Tid) :
    Option (ℕ × ExportLambda Ty × Publication Tid Val) :=
  (s.bus.callback t).bind fun (block, p) => (s.exports block).map fun e => (block, e, p)

def free (s : BridgeNodeState Tid Val) (t : Tid) : Bool :=
  (s.calls t).idle && (s.inLambda t).isNone

def unheld (s : BridgeNodeState Tid Val) (block : ℕ) : Bool :=
  (s.exports block).isNone || s.released.contains block

/-- User code and the executor may take this step of the bus. -/
def allows (s : BridgeNodeState Tid Val) (a : BusAction Tid Val) : Bool :=
  a.actor.all s.free && a.handle.all s.unheld

variable [DecidableEq Ty]

def step (traits : MessageTraits Val) (s : BridgeNodeState Tid Val) :
    BridgeNodeAction Tid Val → Option (BridgeNodeState Tid Val)
  | .bus a =>
    if s.allows a then (s.bus.step a).map fun bus => { s with bus := bus }
    else none
  | .exportTopic t i localTopic remoteTopic τ options =>
    if s.free t && s.bus.userCode t then
      let networkTopic := if remoteTopic = [] then localTopic else remoteTopic
      match (s.bridges i).bridge.requireConfigurable with
      | .error e => some (s.return_ t (some e))
      | .ok () =>
        if localTopic = [] ∨ networkTopic = [] then
          some (s.return_ t (some NetworkBridge.emptyNameError))
        else some (s.setCall t (.subscribing i localTopic networkTopic τ options))
    else none
  -- `receive_remote` is off, so an imported message is not exported again
  | .createSubscription t =>
    match s.calls t with
    | .subscribing i localTopic networkTopic τ options =>
      (s.bus.step (.subscribe t localTopic (traits.contract τ)
        { options with receiveRemote := false } true)).bind fun bus =>
        let s' := { s with bus := bus }
        match bus.history.returns.getLast? with
        | some (_, .subscribed id) =>
          let block := s.bus.history.created
          some ({ s' with
            exports := Function.update s.exports block (some ⟨i, networkTopic, τ⟩) }.setCall t
            (.registering i localTopic networkTopic block id))
        | some (_, .error e) => some (s'.return_ t (some e))
        | _ => none
    | _ => none
  | .addExport t =>
    match s.calls t with
    | .registering i localTopic networkTopic block id =>
      match (s.bridges i).bridge.addExport networkTopic block with
      | .ok bridge => some ((s.setBridge i { s.bridges i with bridge := bridge }).return_ t none)
      -- the handle is destroyed on the way out of the call
      | .error e => some (s.setCall t (.cancelling localTopic block id e))
    | _ => none
  -- the destructor of the handle: `cancel`, then `unsubscribe`
  | .cancelSubscription t =>
    match s.calls t with
    | .cancelling localTopic block id e =>
      (s.bus.step (.cancel t block)).map fun bus =>
        { s with bus := bus }.setCall t (.unsubscribing localTopic block id e)
    | _ => none
  | .unsubscribe t =>
    match s.calls t with
    | .unsubscribing localTopic block id e =>
      (s.bus.step (.unsubscribe t localTopic id)).map fun bus =>
        { s with bus := bus, released := s.released ++ [block] }.return_ t (some e)
    | _ => none
  | .importTopic t i remoteTopic localTopic τ =>
    if s.free t && s.bus.userCode t then
      let destination := if localTopic = [] then remoteTopic else localTopic
      match (s.bridges i).bridge.requireConfigurable with
      | .error e => some (s.return_ t (some e))
      | .ok () =>
        if remoteTopic = [] ∨ destination = [] then
          some (s.return_ t (some NetworkBridge.emptyNameError))
        else some (s.setCall t (.advertising i remoteTopic destination τ))
    else none
  -- the topic stays advertised when the route is refused afterwards
  | .createPublisher t =>
    match s.calls t with
    | .advertising i remoteTopic destination τ =>
      (s.bus.step (.advertise t destination (traits.contract τ))).bind fun bus =>
        let s' := { s with bus := bus }
        match bus.history.returns.getLast? with
        | some (_, .advertised) => some (s'.setCall t (.routing i remoteTopic τ))
        | some (_, .error e) => some (s'.return_ t (some e))
        | _ => none
    | _ => none
  | .addImport t =>
    match s.calls t with
    | .routing i remoteTopic τ =>
      match (s.bridges i).bridge.addImport remoteTopic ⟨traits.typeId τ, traits.schemaHash τ⟩ with
      | .ok bridge => some ((s.setBridge i { s.bridges i with bridge := bridge }).return_ t none)
      | .error e => some (s.return_ t (some e))
    | _ => none
  | .makeFrame t now =>
    match s.inLambda t, s.lambdas t with
    | some (_, e, p), .entered =>
      let state := s.bridges e.bridge
      let bridge := state.bridge
      -- the sequence is drawn before `make_frame` can throw
      let s' := s.setBridge e.bridge { state with
        bridge := { bridge with nextSequence := bridge.nextSequence + 1 }
        draws := state.draws + 1 }
      match staticPointerCast e.localType p.message with
      | some message =>
        match traits.makeFrame e.networkTopic e.localType message bridge.nextSequence
            bridge.publisherId now with
        | .ok frame => some (s'.setLambda t (.built frame))
        | .error _ => some (s'.setLambda t (.ended true))
      | none => none
    | _, _ => none
  | .emitFrame t =>
    match s.inLambda t, s.lambdas t with
    | some (block, e, p), .built frame =>
      let state := s.bridges e.bridge
      let called := { state with emitted := state.emitted ++ [⟨block, p, frame⟩] }
      if state.bridge.stopped then
        some ((s.setBridge e.bridge { called with
          bridge := { state.bridge with outboundDropped := state.bridge.outboundDropped + 1 }
          }).setLambda t (.ended false))
      else some ((s.setBridge e.bridge called).setLambda t (.pushing frame))
    | _, _ => none
  -- a queue that is full or closed drops the frame
  | .push t =>
    match s.inLambda t, s.lambdas t with
    | some (block, e, p), .pushing frame =>
      let state := s.bridges e.bridge
      match state.bridge.outbound.tryPush frame with
      | some outbound =>
        some ((s.setBridge e.bridge { state with
          bridge := { state.bridge with
            outbound := outbound, exported := state.bridge.exported + 1 }
          queued := state.queued ++ [⟨block, p, frame⟩] }).setLambda t (.ended false))
      | none =>
        some ((s.setBridge e.bridge { state with
          bridge := { state.bridge with outboundDropped := state.bridge.outboundDropped + 1 }
          }).setLambda t (.ended false))
    | _, _ => none
  | .lambdaEnd t =>
    match s.inLambda t, s.lambdas t with
    | some _, .ended threw =>
      (s.bus.step (.callbackEnd t threw)).map fun bus => { s with bus := bus }.setLambda t .entered
    | _, _ => none
  | .take i =>
    let state := s.bridges i
    match state.bridge.outbound.queue with
    | frame :: rest =>
      some (s.setBridge i { state with
        bridge := { state.bridge with outbound := { state.bridge.outbound with queue := rest } }
        sent := state.sent ++ [frame] })
    | [] => none
  | .stop i =>
    let state := s.bridges i
    some (s.setBridge i { state with bridge := { state.bridge with stopped := true } })
  | .clearExports i =>
    let state := s.bridges i
    -- `stop` goes on to cancel the subscriptions with handles of its own
    if state.bridge.stopped then
      some { s.setBridge i { state with
        bridge := { state.bridge with exportTopics := [], exportCancellers := [] } } with
        released := s.released ++ state.bridge.exportCancellers }
    else none
  | .closeOutbound i =>
    let state := s.bridges i
    if state.bridge.stopped then
      some (s.setBridge i { state with
        bridge := { state.bridge with outbound := state.bridge.outbound.close } })
    else none

end BridgeNodeState

def bridgeNodeSystem {Tid Ty : Type} {Val : Ty → Type} [DecidableEq Tid] [DecidableEq Ty]
    (traits : MessageTraits Val) (options : ℕ → NetworkBridgeOptions)
    (defaultPublisherId : ℕ → BitVec 64) :
    TransitionSystem (BridgeNodeState Tid Val) (BridgeNodeAction Tid Val) where
  init s := ∃ bridges : ℕ → NetworkBridge,
    (∀ i, NetworkBridge.create (options i) (defaultPublisherId i) = .ok (bridges i)) ∧
      s = { bridges := fun i => { bridge := bridges i } }
  step := BridgeNodeState.step traits

end RobotMiddleware
