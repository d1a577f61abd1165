import Mathlib.Data.List.AList
import Mathlib.Data.Nat.Digits.Defs
import RobotMiddleware.FrameModel
import RobotMiddleware.MailboxModel

/-! `NetworkBridge`. The import half is `receive_frame`, run by any number of session threads
that meet at `configuration_mutex_` and `duplicate_mutex_`. The export half is the callbacks
of the export subscriptions, which share one sequence counter and one outbound queue. -/
namespace RobotMiddleware

structure NetworkBridgeOptions where
  publisherId : BitVec 64 := 0
  outboundQueueDepth : ℕ := 1024
  maxDedupEntries : ℕ := 4096
  deriving DecidableEq, Repr

def kHeartbeatFlag : BitVec 8 := 1

/-- "__rml/heartbeat" -/
def kHeartbeatTopic : Bytes := [95, 95, 114, 109, 108, 47, 104, 101, 97, 114, 116, 98, 101, 97, 116]

def isHeartbeatFrame (frame : Frame) : Bool :=
  frame.flags = kHeartbeatFlag ∧ frame.topic = kHeartbeatTopic ∧ frame.typeId = 0 ∧
    frame.schemaHash = 0 ∧ frame.payload = []

def hasHeartbeatFlag (frame : Frame) : Bool :=
  frame.flags &&& kHeartbeatFlag ≠ 0

inductive FrameClass
  | heartbeat
  | business
  | protocolError
  deriving DecidableEq, Repr

/-- The tests on the flags that every receive path begins with. -/
def classify (frame : Frame) : FrameClass :=
  if hasHeartbeatFlag frame then
    if isHeartbeatFrame frame then .heartbeat else .protocolError
  else if frame.flags ≠ 0 then .protocolError
  else .business

/-! The import half. -/

/-- `ImportRoute` without its handler, which returns or throws as it likes. -/
structure ImportRoute where
  typeId : BitVec 32 := 0
  schemaHash : BitVec 64 := 0
  deriving DecidableEq, Repr

structure SequenceState where
  highest : BitVec 64 := 0
  latestSendTimeNs : BitVec 64 := 0
  deriving DecidableEq, Repr

/-- `std::to_string`. -/
def decimal (n : ℕ) : Bytes :=
  if n = 0 then [48] else (Nat.digits 10 n).reverse.map fun d => BitVec.ofNat 8 (48 + d)

/-- `topic + '\n' + std::to_string(publisher_id)`. -/
def duplicateKey (topic : Bytes) (publisherId : BitVec 64) : Bytes :=
  topic ++ 10 :: decimal publisherId.toNat

structure BridgeImport where
  maxDedupEntries : ℕ
  imports : AList (fun _ : Bytes => ImportRoute) := ∅
  highestSequences : AList (fun _ : Bytes => SequenceState) := ∅
  stopped : Bool := false
  imported : ℕ := 0
  heartbeatsReceived : ℕ := 0
  rejectedFrames : ℕ := 0
  unknownTopic : ℕ := 0
  duplicateFrames : ℕ := 0
  maxDedupEntries_pos : 0 < maxDedupEntries

namespace BridgeImport

def create (options : NetworkBridgeOptions) : Except MiddlewareError BridgeImport :=
  if h : options.outboundQueueDepth = 0 ∨ options.maxDedupEntries = 0 then
    .error ⟨"bridge queue depth and dedup entry limit must be greater than zero"⟩
  else
    .ok { maxDedupEntries := options.maxDedupEntries
          maxDedupEntries_pos := Nat.pos_of_ne_zero fun hzero => h (.inr hzero) }

/-- `add_import`; `none` is a `MiddlewareError`. -/
def addImport (b : BridgeImport) (remoteTopic : Bytes) (route : ImportRoute) :
    Option BridgeImport :=
  if b.stopped || (b.imports.lookup remoteTopic).isSome then none
  else some { b with imports := b.imports.insert remoteTopic route }

/-- The lookup and the type check. `true` lets the frame go on to the dedup section. -/
def lookupRoute (b : BridgeImport) (frame : Frame) : BridgeImport × Bool :=
  match b.imports.lookup frame.topic with
  | none => ({ b with unknownTopic := b.unknownTopic + 1 }, false)
  | some route =>
    if route.typeId ≠ frame.typeId ∨ route.schemaHash ≠ frame.schemaHash then
      ({ b with rejectedFrames := b.rejectedFrames + 1 }, false)
    else (b, true)

/-- The dedup section. `true` lets the frame go on to the handler. -/
def reserve (b : BridgeImport) (frame : Frame) : BridgeImport × Bool :=
  let key := duplicateKey frame.topic frame.publisherId
  let state : SequenceState := ⟨frame.sequence, frame.sendTimeNs⟩
  match b.highestSequences.lookup key with
  | some found =>
    let newEpoch := frame.sequence = 0 ∧ found.latestSendTimeNs < frame.sendTimeNs
    if frame.sequence ≤ found.highest ∧ ¬ newEpoch then
      ({ b with duplicateFrames := b.duplicateFrames + 1 }, false)
    else ({ b with highestSequences := b.highestSequences.insert key state }, true)
  | none =>
    -- a full table is emptied, whatever it remembers
    let entries := if b.maxDedupEntries ≤ b.highestSequences.keys.length then ∅
      else b.highestSequences
    ({ b with highestSequences := entries.insert key state }, true)

def finish (b : BridgeImport) (threw : Bool) : BridgeImport :=
  if threw then { b with rejectedFrames := b.rejectedFrames + 1 }
  else { b with imported := b.imported + 1 }

end BridgeImport

inductive ReceiveCall
  | routing (frame : Frame)
  | matched (frame : Frame)
  | reserved (frame : Frame)
  | handling (frame : Frame)
  deriving DecidableEq

/-- What happened so far: the dedup sections in order with their verdicts, the frames that
entered a handler, what the calls returned, and the frames that found the bridge stopped. -/
structure ImportHistory where
  verdicts : List (Frame × Bool) := []
  entered : List Frame := []
  returns : List (Frame × Bool) := []
  ignored : List Frame := []
  deriving DecidableEq

structure ImportState where
  bridge : BridgeImport
  calls : Multiset ReceiveCall := 0
  history : ImportHistory := {}

inductive ImportAction
  | addImport (remoteTopic : Bytes) (route : ImportRoute)
  | stop
  | receive (frame : Frame)
  | lookup (frame : Frame)
  | reserve (frame : Frame)
  | enter (frame : Frame)
  | finish (frame : Frame) (threw : Bool)
  deriving DecidableEq

namespace ImportState

def return_ (s : ImportState) (bridge : BridgeImport) (calls : Multiset ReceiveCall)
    (frame : Frame) (result : Bool) : ImportState :=
  { s with
    bridge := bridge
    calls := calls
    history := { s.history with returns := s.history.returns ++ [(frame, result)] } }

def step (s : ImportState) : ImportAction → Option ImportState
  | .addImport remoteTopic route =>
    match s.bridge.addImport remoteTopic route with
    | some bridge => some { s with bridge := bridge }
    | none => some s
  | .stop => some { s with bridge := { s.bridge with stopped := true } }
  | .receive frame =>
    if s.bridge.stopped then
      some { s with history := { s.history with ignored := s.history.ignored ++ [frame] } }
    else
      match classify frame with
      | .heartbeat =>
        some (s.return_ { s.bridge with heartbeatsReceived := s.bridge.heartbeatsReceived + 1 }
          s.calls frame true)
      | .protocolError =>
        some (s.return_ { s.bridge with rejectedFrames := s.bridge.rejectedFrames + 1 }
          s.calls frame false)
      | .business => some { s with calls := .routing frame ::ₘ s.calls }
  -- the section under `configuration_mutex_`
  | .lookup frame =>
    if .routing frame ∈ s.calls then
      let calls := s.calls.erase (.routing frame)
      match s.bridge.lookupRoute frame with
      | (bridge, true) => some { s with bridge := bridge, calls := .matched frame ::ₘ calls }
      | (bridge, false) => some (s.return_ bridge calls frame false)
    else none
  -- the section under `duplicate_mutex_`, which is over before the handler runs
  | .reserve frame =>
    if .matched frame ∈ s.calls then
      let calls := s.calls.erase (.matched frame)
      let history := { s.history with
        verdicts := s.history.verdicts ++ [(frame, (s.bridge.reserve frame).2)] }
      match s.bridge.reserve frame with
      | (bridge, true) =>
        some { bridge := bridge, calls := .reserved frame ::ₘ calls, history := history }
      | (bridge, false) =>
        some (return_ { s with history := history } bridge calls frame false)
    else none
  | .enter frame =>
    if .reserved frame ∈ s.calls then
      some { s with
        calls := .handling frame ::ₘ s.calls.erase (.reserved frame)
        history := { s.history with entered := s.history.entered ++ [frame] } }
    else none
  -- what was reserved stays so when the handler throws
  | .finish frame threw =>
    if .handling frame ∈ s.calls then
      some (s.return_ (s.bridge.finish threw) (s.calls.erase (.handling frame)) frame !threw)
    else none

end ImportState

def importSystem (options : NetworkBridgeOptions) :
    TransitionSystem ImportState ImportAction where
  init s := ∃ bridge, BridgeImport.create options = .ok bridge ∧ s = { bridge := bridge }
  step := ImportState.step

/-! The export half. -/

/-- The `MessageTraits` of an exported topic. -/
structure ExportRoute where
  typeId : BitVec 32 := 0
  schemaHash : BitVec 64 := 0
  deriving DecidableEq, Repr

def makeFrame (topic : Bytes) (route : ExportRoute) (payload : Bytes)
    (sequence publisherId sendTimeNs : BitVec 64) : Except String Frame :=
  if topic = [] then .error "network topic cannot be empty"
  else if 65535 < topic.length then .error "network topic exceeds the wire-format limit"
  else .ok { typeId := route.typeId, schemaHash := route.schemaHash, sequence := sequence,
             publisherId := publisherId, sendTimeNs := sendTimeNs, topic := topic,
             payload := payload }

structure BridgeExport where
  publisherId : BitVec 64
  outboundQueueDepth : ℕ
  nextSequence : BitVec 64 := 0
  exports : AList (fun _ : Bytes => ExportRoute) := ∅
  outbound : List Frame := []
  stopped : Bool := false
  exported : ℕ := 0
  outboundDropped : ℕ := 0

namespace BridgeExport

/-- `defaultPublisherId` stands for `default_publisher_id()`. -/
def create (options : NetworkBridgeOptions) (defaultPublisherId : BitVec 64) :
    Except MiddlewareError BridgeExport :=
  if options.outboundQueueDepth = 0 ∨ options.maxDedupEntries = 0 then
    .error ⟨"bridge queue depth and dedup entry limit must be greater than zero"⟩
  else
    .ok { publisherId := if options.publisherId = 0 then defaultPublisherId
            else options.publisherId
          outboundQueueDepth := options.outboundQueueDepth }

def addExport (b : BridgeExport) (remoteTopic : Bytes) (route : ExportRoute) :
    Option BridgeExport :=
  if b.stopped || (b.exports.lookup remoteTopic).isSome then none
  else some { b with exports := b.exports.insert remoteTopic route }

def emitFrame (b : BridgeExport) (frame : Frame) : BridgeExport :=
  if b.stopped = false ∧ b.outbound.length < b.outboundQueueDepth then
    { b with outbound := b.outbound ++ [frame], exported := b.exported + 1 }
  else { b with outboundDropped := b.outboundDropped + 1 }

end BridgeExport

/-- `building` is the frame that the export callback of a topic has built and not emitted
yet: the callbacks of one subscription do not overlap. `sent` are the frames taken out of
the outbound queue, `draws` the sequence numbers drawn. -/
structure ExportState where
  bridge : BridgeExport
  building : Bytes → Option Frame := fun _ => none
  sent : List Frame := []
  draws : ℕ := 0

inductive ExportAction
  | addExport (remoteTopic : Bytes) (route : ExportRoute)
  | callback (topic : Bytes) (payload : Bytes) (now : BitVec 64)
  | emit (topic : Bytes)
  | take
  | stop

namespace ExportState

def step (s : ExportState) : ExportAction → Option ExportState
  | .addExport remoteTopic route =>
    match s.bridge.addExport remoteTopic route with
    | some bridge => some { s with bridge := bridge }
    | none => some s
  | .callback topic payload now =>
    match s.bridge.exports.lookup topic, s.building topic with
    | some route, none =>
      -- the sequence is drawn before `make_frame` can throw
      let bridge := { s.bridge with nextSequence := s.bridge.nextSequence + 1 }
      match makeFrame topic route payload s.bridge.nextSequence s.bridge.publisherId now with
      | .ok frame =>
        some { s with
          bridge := bridge
          building := Function.update s.building topic (some frame)
          draws := s.draws + 1 }
      | .error _ => some { s with bridge := bridge, draws := s.draws + 1 }
    | _, _ => none
  | .emit topic =>
    match s.building topic with
    | some frame =>
      some { s with
        bridge := s.bridge.emitFrame frame
        building := Function.update s.building topic none }
    | none => none
  -- the sender loop or the connection takes the oldest frame
  | .take =>
    match s.bridge.outbound with
    | frame :: rest =>
      some { s with bridge := { s.bridge with outbound := rest }, sent := s.sent ++ [frame] }
    | [] => none
  | .stop => some { s with bridge := { s.bridge with stopped := true } }

end ExportState

def exportSystem (options : NetworkBridgeOptions) (defaultPublisherId : BitVec 64) :
    TransitionSystem ExportState ExportAction where
  init s := ∃ bridge, BridgeExport.create options defaultPublisherId = .ok bridge ∧
    s = { bridge := bridge }
  step := ExportState.step

end RobotMiddleware
