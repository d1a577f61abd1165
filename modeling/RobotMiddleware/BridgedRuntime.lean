import RobotMiddleware.BridgeNodeModel
import RobotMiddleware.Observation

/-! A runtime with its bridges, both halves of each: the export subscriptions, and the handlers
that `import_topic` registers and `receive_frame` calls. -/
namespace RobotMiddleware

/-- `MessageTraits` with the deserializer of every message type, which may throw. -/
structure NetworkTraits {Ty : Type} (Val : Ty → Type) extends MessageTraits Val where
  deserialize : ∀ τ, Bytes → Except String (Val τ)

def NetworkTraits.deserializeFrame {Ty : Type} {Val : Ty → Type} (traits : NetworkTraits Val)
    (τ : Ty) (frame : Frame) (expectedTopic : Bytes) : Except String (Val τ) :=
  if expectedTopic ≠ [] ∧ frame.topic ≠ expectedTopic then
    .error "network frame topic does not match subscription"
  else if frame.typeId ≠ traits.typeId τ then
    .error "network frame message type does not match subscription"
  else if frame.schemaHash ≠ traits.schemaHash τ then
    .error "network frame schema does not match subscription"
  else traits.deserialize τ frame.payload

/-- What the handler of an import captures, and its message type. -/
structure ImportLambda (Ty : Type) where
  remoteTopic : Bytes
  destination : Bytes
  localType : Ty
  deriving DecidableEq

inductive Receiving (Ty : Type)
  | none
  | routing (bridge : ℕ) (frame : Frame)
  | matched (bridge : ℕ) (frame : Frame) (handler : ImportLambda Ty)
  | reserved (bridge : ℕ) (frame : Frame) (handler : ImportLambda Ty)
  | handling (bridge : ℕ) (frame : Frame) (handler : ImportLambda Ty)
  | publishing (bridge : ℕ) (frame : Frame)
  deriving DecidableEq

/-- `handlers` are the handlers in the import tables, and `destinations` the topic that a call
of `import_topic` has created its publisher for. -/
structure BridgedRuntime (Tid : Type) {Ty : Type} (Val : Ty → Type) where
  node : BridgeNodeState Tid Val
  imports : ℕ → ImportState
  handlers : ℕ → Bytes → Option (ImportLambda Ty) := fun _ _ => none
  destinations : Tid → Bytes := fun _ => []
  receiving : Tid → Receiving Ty := fun _ => .none

inductive RuntimeBridgeAction (Tid : Type) {Ty : Type} (Val : Ty → Type)
  | node (a : BridgeNodeAction Tid Val)
  | receive (t : Tid) (bridge : ℕ) (frame : Frame)
  | lookup (t : Tid)
  | reserve (t : Tid)
  | enter (t : Tid)
  | handle (t : Tid) (order : List ℕ)
  | handled (t : Tid)

def BridgeNodeAction.actor {Tid Ty : Type} {Val : Ty → Type} :
    BridgeNodeAction Tid Val → Option Tid
  | .bus a => a.actor
  | .exportTopic t _ _ _ _ _ | .createSubscription t | .addExport t | .cancelSubscription t
  | .unsubscribe t | .importTopic t _ _ _ _ | .createPublisher t | .addImport t | .makeFrame t _
  | .emitFrame t | .push t | .lambdaEnd t => some t
  | .take _ | .stop _ | .clearExports _ | .closeOutbound _ => none

namespace BridgedRuntime
variable {Tid Ty : Type} {Val : Ty → Type} [DecidableEq Tid]

def setReceiving (s : BridgedRuntime Tid Val) (t : Tid) (receiving : Receiving Ty) :
    BridgedRuntime Tid Val :=
  { s with receiving := Function.update s.receiving t receiving }

def onImport (s : BridgedRuntime Tid Val) (i : ℕ) (a : ImportAction) :
    Option (BridgedRuntime Tid Val) :=
  ((s.imports i).step a).map fun state =>
    { s with imports := Function.update s.imports i state }

def inCall (s : BridgedRuntime Tid Val) (t : Tid) : Bool :=
  match (s.node.bus.threads t).call with
  | .none => false
  | _ => true

/-- A thread inside `receive_frame` goes on with that call only, which `publish_remote` is part
of. -/
def mayStep (s : BridgedRuntime Tid Val) (t : Tid) : Bool :=
  match s.receiving t with
  | .none => true
  | .publishing _ _ => s.inCall t
  | _ => false

def publishThrew (s : BridgedRuntime Tid Val) (t : Tid) : Bool :=
  match (s.node.bus.history.returns.filter fun r => r.1 = t).getLast? with
  | some (_, .publishThrew) | some (_, .error _) => true
  | _ => false

/-- `import_topic` and `stop` act on tables that `receive_frame` reads. -/
def follow (traits : NetworkTraits Val) (s : BridgedRuntime Tid Val) :
    BridgeNodeAction Tid Val → BridgedRuntime Tid Val
  | .createPublisher t =>
    match s.node.calls t with
    | .advertising _ _ destination _ =>
      { s with destinations := Function.update s.destinations t destination }
    | _ => s
  | .addImport t =>
    match s.node.calls t with
    | .routing i remoteTopic τ =>
      match (s.imports i).bridge.addImport remoteTopic ⟨traits.typeId τ, traits.schemaHash τ⟩ with
      | some bridge =>
        { s with
          imports := Function.update s.imports i { s.imports i with bridge := bridge }
          handlers := Function.update s.handlers i (Function.update (s.handlers i) remoteTopic
            (some ⟨remoteTopic, s.destinations t, τ⟩)) }
      | none => s
    | _ => s
  | .stop i => (s.onImport i .stop).getD s
  | _ => s

variable [DecidableEq Ty]

def step (traits : NetworkTraits Val) (s : BridgedRuntime Tid Val) :
    RuntimeBridgeAction Tid Val → Option (BridgedRuntime Tid Val)
  | .node a =>
    if a.actor.all s.mayStep then
      (s.node.step traits.toMessageTraits a).map fun node => { s.follow traits a with node := node }
    else none
  | .receive t i frame =>
    match s.receiving t with
    | .none =>
      if s.node.free t && s.node.bus.userCode t then
        (s.onImport i (.receive frame)).map fun s' =>
          if !(s.imports i).bridge.stopped && classify frame == .business then
            s'.setReceiving t (.routing i frame)
          else s'
      else none
    | _ => none
  | .lookup t =>
    match s.receiving t with
    | .routing i frame =>
      (s.onImport i (.lookup frame)).bind fun s' =>
        if ((s.imports i).bridge.lookupRoute frame).2 then
          (s.handlers i frame.topic).map fun handler =>
            s'.setReceiving t (.matched i frame handler)
        else some (s'.setReceiving t .none)
    | _ => none
  | .reserve t =>
    match s.receiving t with
    | .matched i frame handler =>
      (s.onImport i (.reserve frame)).map fun s' =>
        s'.setReceiving t (if ((s.imports i).bridge.reserve frame).2 then
          .reserved i frame handler else .none)
    | _ => none
  | .enter t =>
    match s.receiving t with
    | .reserved i frame handler =>
      (s.onImport i (.enter frame)).map fun s' => s'.setReceiving t (.handling i frame handler)
    | _ => none
  | .handle t order =>
    match s.receiving t with
    | .handling i frame handler =>
      match traits.deserializeFrame handler.localType frame handler.remoteTopic with
      | .error _ =>
        (s.onImport i (.finish frame true)).map fun s' => s'.setReceiving t .none
      | .ok message =>
        (s.node.step traits.toMessageTraits (.bus (.publish t handler.destination
          (traits.typeId handler.localType) (traits.schemaHash handler.localType)
          ⟨handler.localType, message⟩ true order))).map fun node =>
            { s with node := node }.setReceiving t (.publishing i frame)
    | _ => none
  | .handled t =>
    match s.receiving t with
    | .publishing i frame =>
      if s.inCall t then none
      else
        (s.onImport i (.finish frame (s.publishThrew t))).map fun s' => s'.setReceiving t .none
    | _ => none

end BridgedRuntime

def bridgedRuntimeSystem {Tid Ty : Type} {Val : Ty → Type} [DecidableEq Tid] [DecidableEq Ty]
    (traits : NetworkTraits Val) (options : ℕ → NetworkBridgeOptions)
    (defaultPublisherId : ℕ → BitVec 64) :
    TransitionSystem (BridgedRuntime Tid Val) (RuntimeBridgeAction Tid Val) where
  init s := (bridgeNodeSystem traits.toMessageTraits options defaultPublisherId).init s.node ∧
    ∃ bridges : ℕ → BridgeImport, (∀ i, BridgeImport.create (options i) = .ok (bridges i)) ∧
      s = { node := s.node, imports := fun i => { bridge := bridges i } }
  step := BridgedRuntime.step traits

namespace BridgedRuntime
variable {Tid Ty : Type} {Val : Ty → Type} [DecidableEq Tid] [DecidableEq Ty]
  {traits : NetworkTraits Val} {options : ℕ → NetworkBridgeOptions}
  {defaultPublisherId : ℕ → BitVec 64} {s s' : BridgedRuntime Tid Val}
  {a : RuntimeBridgeAction Tid Val}

/-- What a step is for the bridges and the bus: an action of theirs, the `publish_remote` of a
handler, or nothing. -/
inductive NodeView (traits : NetworkTraits Val) (s : BridgedRuntime Tid Val) :
    RuntimeBridgeAction Tid Val → BridgeNodeState Tid Val → Prop
  | node (a : BridgeNodeAction Tid Val) (node : BridgeNodeState Tid Val) :
      s.node.step traits.toMessageTraits a = some node → NodeView traits s (.node a) node
  | remote (t : Tid) (order : List ℕ) (handler : ImportLambda Ty)
      (message : Val handler.localType) (node : BridgeNodeState Tid Val) :
      s.node.step traits.toMessageTraits (.bus (.publish t handler.destination
        (traits.typeId handler.localType) (traits.schemaHash handler.localType)
        ⟨handler.localType, message⟩ true order)) = some node →
      NodeView traits s (.handle t order) node
  | receiving (a : RuntimeBridgeAction Tid Val) : (∀ b, a ≠ .node b) → NodeView traits s a s.node

omit [DecidableEq Tid] [DecidableEq Ty] in
theorem node_of_onImport {i : ℕ} {b : ImportAction} (h : s.onImport i b = some s') :
    s'.node = s.node := by
  obtain ⟨state, -, rfl⟩ := Option.map_eq_some_iff.mp h
  rfl

theorem node_view (h : s.step traits a = some s') : NodeView traits s a s'.node := by
  have hquiet (hnode : s'.node = s.node) (ha : ∀ b, a ≠ .node b) : NodeView traits s a s'.node :=
    hnode ▸ .receiving a ha
  cases a with
  | node b =>
    obtain ⟨-, h⟩ := Option.ite_none_right_eq_some.mp h
    obtain ⟨node, hnode, rfl⟩ := Option.map_eq_some_iff.mp h
    exact .node b node hnode
  | receive t i frame =>
    refine hquiet ?_ (by simp)
    simp only [step] at h
    split at h
    case h_1 =>
      obtain ⟨-, h⟩ := Option.ite_none_right_eq_some.mp h
      obtain ⟨s₁, hs₁, rfl⟩ := Option.map_eq_some_iff.mp h
      split
      case isTrue => exact (node_of_onImport hs₁ :)
      case isFalse => exact (node_of_onImport hs₁ :)
    case h_2 => cases h
  | lookup t =>
    refine hquiet ?_ (by simp)
    simp only [step] at h
    split at h
    case h_1 i frame hreceiving =>
      obtain ⟨s₁, hs₁, h⟩ := Option.bind_eq_some_iff.mp h
      split at h
      case isTrue =>
        obtain ⟨handler, -, rfl⟩ := Option.map_eq_some_iff.mp h
        exact (node_of_onImport hs₁ :)
      case isFalse =>
        cases h
        exact (node_of_onImport hs₁ :)
    case h_2 => cases h
  | reserve t | enter t =>
    refine hquiet ?_ (by simp)
    simp only [step] at h
    split at h
    case h_1 =>
      obtain ⟨s₁, hs₁, rfl⟩ := Option.map_eq_some_iff.mp h
      exact (node_of_onImport hs₁ :)
    case h_2 => cases h
  | handle t order =>
    simp only [step] at h
    split at h
    case h_1 i frame handler hreceiving =>
      split at h
      case h_1 =>
        obtain ⟨s₁, hs₁, rfl⟩ := Option.map_eq_some_iff.mp h
        exact hquiet (node_of_onImport hs₁ :) (by simp)
      case h_2 message hmessage =>
        obtain ⟨node, hnode, rfl⟩ := Option.map_eq_some_iff.mp h
        exact .remote t order handler message node hnode
    case h_2 => cases h
  | handled t =>
    refine hquiet ?_ (by simp)
    simp only [step] at h
    split at h
    case h_1 i frame hreceiving =>
      obtain ⟨-, h⟩ := Option.ite_none_left_eq_some.mp h
      obtain ⟨s₁, hs₁, rfl⟩ := Option.map_eq_some_iff.mp h
      exact (node_of_onImport hs₁ :)
    case h_2 => cases h

/-- The bridges and the bus behind `receive_frame` run as they do without it. -/
theorem node_reachable
    (h : (bridgedRuntimeSystem traits options defaultPublisherId).Reachable s) :
    (bridgeNodeSystem traits.toMessageTraits options defaultPublisherId).Reachable s.node := by
  refine h.invariant (P := fun s => (bridgeNodeSystem traits.toMessageTraits options
    defaultPublisherId).Reachable s.node) ?_ ?_
  · rintro s ⟨hinit, -⟩
    exact .init hinit
  intro s a s' _ ih hstep
  have hview := node_view hstep
  generalize s'.node = node at hview ⊢
  cases hview with
  | node a node hnode => exact ih.step (a := a) hnode
  | remote t order handler message node hnode => exact ih.step (a := .bus _) hnode
  | receiving => exact ih

end BridgedRuntime
end RobotMiddleware
