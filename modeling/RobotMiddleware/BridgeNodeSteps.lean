import RobotMiddleware.BridgeNodeModel
import RobotMiddleware.TopicCallbacks

/-! What a step of a bridge or of its bus does to the callbacks of the export subscriptions and
to the frames that they make. -/
namespace RobotMiddleware

/-- What the export callbacks read and write of a bridge, apart from its queue. -/
structure ExportFlow (Tid : Type) {Ty : Type} (Val : Ty → Type) where
  publisherId : BitVec 64
  nextSequence : BitVec 64
  draws : ℕ
  emitted : List (ExportedFrame Tid Val)
  queued : List (ExportedFrame Tid Val)

def BridgeState.flow {Tid Ty : Type} {Val : Ty → Type} (b : BridgeState Tid Val) :
    ExportFlow Tid Val :=
  ⟨b.bridge.publisherId, b.bridge.nextSequence, b.draws, b.emitted, b.queued⟩

def ExportFlow.draw {Tid Ty : Type} {Val : Ty → Type} (f : ExportFlow Tid Val) :
    ExportFlow Tid Val :=
  { f with nextSequence := f.nextSequence + 1, draws := f.draws + 1 }

def BridgeNodeAction.begins {Tid Ty : Type} {Val : Ty → Type} :
    BridgeNodeAction Tid Val → Option Tid
  | .exportTopic t _ _ _ _ _ | .importTopic t _ _ _ _ => some t
  | _ => none

theorem NetworkBridge.stopped_of_configurable {b : NetworkBridge}
    (h : b.requireConfigurable = .ok ()) : b.stopped = false := by
  unfold requireConfigurable at h
  split at h
  case isTrue => cases h
  case isFalse hstopped => exact Bool.eq_false_iff.mpr hstopped

namespace BridgeNodeState
variable {Tid Ty : Type} {Val : Ty → Type} [DecidableEq Tid] {traits : MessageTraits Val}
  {options : ℕ → NetworkBridgeOptions} {defaultPublisherId : ℕ → BitVec 64}
  {s s' : BridgeNodeState Tid Val} {a : BridgeNodeAction Tid Val} {t u : Tid} {i block : ℕ}
  {e : ExportLambda Ty} {p : Publication Tid Val}

omit [DecidableEq Tid] in
theorem flow_setBridge (state : BridgeState Tid Val) (j : ℕ) :
    ((s.setBridge i state).bridges j).flow = if j = i then state.flow else (s.bridges j).flow := by
  by_cases hj : j = i
  · simp only [setBridge, hj, Function.update_self, if_true]
  · simp only [setBridge, Function.update_of_ne hj, if_neg hj]

omit [DecidableEq Tid] in
/-- Tables, flags and the queue are not part of the flow. -/
theorem flow_setBridge_of_eq {state : BridgeState Tid Val} (h : state.flow = (s.bridges i).flow)
    (j : ℕ) : ((s.setBridge i state).bridges j).flow = (s.bridges j).flow := by
  rw [flow_setBridge]
  split
  case isTrue hj => rw [h, hj]
  case isFalse => rfl

omit [DecidableEq Tid] in
theorem inLambda_eq_some : s.inLambda t = some (block, e, p) ↔
    s.bus.callback t = some (block, p) ∧ s.exports block = some e := by
  constructor
  · intro h
    obtain ⟨⟨other, q⟩, hcallback, h⟩ := Option.bind_eq_some_iff.mp h
    obtain ⟨e', hexport, heq⟩ := Option.map_eq_some_iff.mp h
    cases heq
    exact ⟨hcallback, hexport⟩
  · rintro ⟨hcallback, hexport⟩
    simp only [inLambda, hcallback, Option.bind_some, hexport, Option.map_some]

omit [DecidableEq Tid] in
theorem inLambda_congr (hbus : s'.bus = s.bus) (hexports : s'.exports = s.exports) (t : Tid) :
    s'.inLambda t = s.inLambda t := by
  rw [inLambda, inLambda, hbus, hexports]

variable [DecidableEq Ty]

inductive StepView (traits : MessageTraits Val) (s : BridgeNodeState Tid Val) :
    BridgeNodeAction Tid Val → BridgeNodeState Tid Val → Prop
  | bus (a : BusAction Tid Val) (bus : BusState Tid Val) : s.allows a = true →
      s.bus.step a = some bus → StepView traits s (.bus a) { s with bus := bus }
  | exporting (t : Tid) (i : ℕ) (localTopic remoteTopic : Bytes) (τ : Ty)
      (options : SubscriptionOptions) : s.free t = true → s.bus.userCode t = true →
      (s.bridges i).bridge.stopped = false →
      StepView traits s (.exportTopic t i localTopic remoteTopic τ options)
        (s.setCall t (.subscribing i localTopic
          (if remoteTopic = [] then localTopic else remoteTopic) τ options))
  | importing (t : Tid) (i : ℕ) (remoteTopic localTopic : Bytes) (τ : Ty) : s.free t = true →
      s.bus.userCode t = true → (s.bridges i).bridge.stopped = false →
      StepView traits s (.importTopic t i remoteTopic localTopic τ)
        (s.setCall t (.advertising i remoteTopic
          (if localTopic = [] then remoteTopic else localTopic) τ))
  | refused (a : BridgeNodeAction Tid Val) (t : Tid) (e : MiddlewareError) :
      a.begins = some t ∨ a = .addImport t → StepView traits s a (s.return_ t (some e))
  | subscribed (t : Tid) (i : ℕ) (localTopic networkTopic : Bytes) (τ : Ty)
      (options : SubscriptionOptions) (bus : BusState Tid Val) (u : Tid) (id : BitVec 64) :
      s.calls t = .subscribing i localTopic networkTopic τ options →
      s.bus.step (.subscribe t localTopic (traits.contract τ)
        { options with receiveRemote := false } true) = some bus →
      bus.history.returns.getLast? = some (u, .subscribed id) →
      StepView traits s (.createSubscription t) ({ s with
        bus := bus
        exports := Function.update s.exports s.bus.history.created (some ⟨i, networkTopic, τ⟩)
        }.setCall t (.registering i localTopic networkTopic s.bus.history.created id))
  | busRefused (a : BridgeNodeAction Tid Val) (t : Tid) (act : BusAction Tid Val)
      (bus : BusState Tid Val) (u : Tid) (e : MiddlewareError) :
      a = .createSubscription t ∨ a = .createPublisher t → act.registryCall = true →
      s.bus.step act = some bus → bus.history.returns.getLast? = some (u, .error e) →
      StepView traits s a ({ s with bus := bus }.return_ t (some e))
  | registered (t : Tid) (i : ℕ) (localTopic networkTopic : Bytes) (block : ℕ) (id : BitVec 64)
      (bridge : NetworkBridge) : s.calls t = .registering i localTopic networkTopic block id →
      (s.bridges i).bridge.addExport networkTopic block = .ok bridge →
      StepView traits s (.addExport t)
        ((s.setBridge i { s.bridges i with bridge := bridge }).return_ t none)
  | rejected (t : Tid) (i : ℕ) (localTopic networkTopic : Bytes) (block : ℕ) (id : BitVec 64)
      (e : MiddlewareError) : s.calls t = .registering i localTopic networkTopic block id →
      (s.bridges i).bridge.addExport networkTopic block = .error e →
      StepView traits s (.addExport t) (s.setCall t (.cancelling localTopic block id e))
  | cancelled (t : Tid) (localTopic : Bytes) (block : ℕ) (id : BitVec 64) (e : MiddlewareError)
      (bus : BusState Tid Val) : s.calls t = .cancelling localTopic block id e →
      s.bus.step (.cancel t block) = some bus →
      StepView traits s (.cancelSubscription t)
        ({ s with bus := bus }.setCall t (.unsubscribing localTopic block id e))
  | unsubscribed (t : Tid) (localTopic : Bytes) (block : ℕ) (id : BitVec 64)
      (e : MiddlewareError) (bus : BusState Tid Val) :
      s.calls t = .unsubscribing localTopic block id e →
      s.bus.step (.unsubscribe t localTopic id) = some bus →
      StepView traits s (.unsubscribe t)
        ({ s with bus := bus, released := s.released ++ [block] }.return_ t (some e))
  | advertised (t : Tid) (i : ℕ) (remoteTopic destination : Bytes) (τ : Ty)
      (bus : BusState Tid Val) (u : Tid) : s.calls t = .advertising i remoteTopic destination τ →
      s.bus.step (.advertise t destination (traits.contract τ)) = some bus →
      bus.history.returns.getLast? = some (u, .advertised) →
      StepView traits s (.createPublisher t)
        ({ s with bus := bus }.setCall t (.routing i remoteTopic τ))
  | routed (t : Tid) (i : ℕ) (remoteTopic : Bytes) (τ : Ty) (bridge : NetworkBridge) :
      s.calls t = .routing i remoteTopic τ →
      (s.bridges i).bridge.addImport remoteTopic ⟨traits.typeId τ, traits.schemaHash τ⟩ =
        .ok bridge →
      StepView traits s (.addImport t)
        ((s.setBridge i { s.bridges i with bridge := bridge }).return_ t none)
  | made (t : Tid) (now : BitVec 64) (block : ℕ) (e : ExportLambda Ty)
      (p : Publication Tid Val) (message : Val e.localType) (state : LambdaState) :
      s.inLambda t = some (block, e, p) → s.lambdas t = .entered →
      staticPointerCast e.localType p.message = some message →
      (∃ frame, state = .built frame ∧ traits.makeFrame e.networkTopic e.localType message
        (s.bridges e.bridge).bridge.nextSequence (s.bridges e.bridge).bridge.publisherId now =
          .ok frame) ∨ state = .ended true →
      StepView traits s (.makeFrame t now) ((s.setBridge e.bridge { s.bridges e.bridge with
        bridge := { (s.bridges e.bridge).bridge with
          nextSequence := (s.bridges e.bridge).bridge.nextSequence + 1 }
        draws := (s.bridges e.bridge).draws + 1 }).setLambda t state)
  | emitted (t : Tid) (block : ℕ) (e : ExportLambda Ty) (p : Publication Tid Val)
      (frame : Frame) (dropped : ℕ) (state : LambdaState) :
      s.inLambda t = some (block, e, p) → s.lambdas t = .built frame →
      state = .pushing frame ∨ state = .ended false →
      StepView traits s (.emitFrame t) ((s.setBridge e.bridge { s.bridges e.bridge with
        bridge := { (s.bridges e.bridge).bridge with outboundDropped := dropped }
        emitted := (s.bridges e.bridge).emitted ++ [⟨block, p, frame⟩] }).setLambda t state)
  | pushed (t : Tid) (block : ℕ) (e : ExportLambda Ty) (p : Publication Tid Val)
      (frame : Frame) (outbound : ThreadSafeQueue Frame) :
      s.inLambda t = some (block, e, p) → s.lambdas t = .pushing frame →
      (s.bridges e.bridge).bridge.outbound.tryPush frame = some outbound →
      StepView traits s (.push t) ((s.setBridge e.bridge { s.bridges e.bridge with
        bridge := { (s.bridges e.bridge).bridge with
          outbound := outbound, exported := (s.bridges e.bridge).bridge.exported + 1 }
        queued := (s.bridges e.bridge).queued ++ [⟨block, p, frame⟩] }).setLambda t (.ended false))
  | overflowed (t : Tid) (block : ℕ) (e : ExportLambda Ty) (p : Publication Tid Val)
      (frame : Frame) : s.inLambda t = some (block, e, p) → s.lambdas t = .pushing frame →
      StepView traits s (.push t) ((s.setBridge e.bridge { s.bridges e.bridge with
        bridge := { (s.bridges e.bridge).bridge with
          outboundDropped := (s.bridges e.bridge).bridge.outboundDropped + 1 }
        }).setLambda t (.ended false))
  | lambdaEnded (t : Tid) (block : ℕ) (e : ExportLambda Ty) (p : Publication Tid Val)
      (threw : Bool) (bus : BusState Tid Val) : s.inLambda t = some (block, e, p) →
      s.lambdas t = .ended threw → s.bus.step (.callbackEnd t threw) = some bus →
      StepView traits s (.lambdaEnd t) ({ s with bus := bus }.setLambda t .entered)
  | taken (i : ℕ) (frame : Frame) (rest : List Frame) :
      (s.bridges i).bridge.outbound.queue = frame :: rest →
      StepView traits s (.take i) (s.setBridge i { s.bridges i with
        bridge := { (s.bridges i).bridge with
          outbound := { (s.bridges i).bridge.outbound with queue := rest } }
        sent := (s.bridges i).sent ++ [frame] })
  | stopped (i : ℕ) : StepView traits s (.stop i) (s.setBridge i { s.bridges i with
      bridge := { (s.bridges i).bridge with stopped := true } })
  | cleared (i : ℕ) : (s.bridges i).bridge.stopped = true →
      StepView traits s (.clearExports i) { s.setBridge i { s.bridges i with
        bridge := { (s.bridges i).bridge with exportTopics := [], exportCancellers := [] } } with
        released := s.released ++ (s.bridges i).bridge.exportCancellers }
  | closed (i : ℕ) : (s.bridges i).bridge.stopped = true →
      StepView traits s (.closeOutbound i) (s.setBridge i { s.bridges i with
        bridge := { (s.bridges i).bridge with
          outbound := (s.bridges i).bridge.outbound.close } })

theorem step_view (h : s.step traits a = some s') : StepView traits s a s' := by
  cases a with
  | bus act =>
    obtain ⟨hallows, h⟩ := Option.ite_none_right_eq_some.mp h
    obtain ⟨bus, hbus, rfl⟩ := Option.map_eq_some_iff.mp h
    exact .bus act bus hallows hbus
  | exportTopic t i localTopic remoteTopic τ options =>
    obtain ⟨hguard, h⟩ := Option.ite_none_right_eq_some.mp h
    obtain ⟨hfree, huser⟩ := Bool.and_eq_true_iff.mp hguard
    split at h
    case h_1 e hconfigurable =>
      cases h
      exact .refused _ t e (.inl rfl)
    case h_2 hconfigurable =>
      by_cases hname : localTopic = [] ∨ (if remoteTopic = [] then localTopic else remoteTopic) = []
      · cases (if_pos hname).symm.trans h
        exact .refused _ t _ (.inl rfl)
      · cases (if_neg hname).symm.trans h
        exact .exporting t i localTopic remoteTopic τ options hfree huser
          (NetworkBridge.stopped_of_configurable hconfigurable)
  | importTopic t i remoteTopic localTopic τ =>
    obtain ⟨hguard, h⟩ := Option.ite_none_right_eq_some.mp h
    obtain ⟨hfree, huser⟩ := Bool.and_eq_true_iff.mp hguard
    split at h
    case h_1 e hconfigurable =>
      cases h
      exact .refused _ t e (.inl rfl)
    case h_2 hconfigurable =>
      by_cases hname : remoteTopic = [] ∨ (if localTopic = [] then remoteTopic else localTopic) = []
      · cases (if_pos hname).symm.trans h
        exact .refused _ t _ (.inl rfl)
      · cases (if_neg hname).symm.trans h
        exact .importing t i remoteTopic localTopic τ hfree huser
          (NetworkBridge.stopped_of_configurable hconfigurable)
  | createSubscription t =>
    simp only [step] at h
    split at h
    case h_1 i localTopic networkTopic τ options hcall =>
      obtain ⟨bus, hbus, h⟩ := Option.bind_eq_some_iff.mp h
      split at h
      case h_1 u id hlast =>
        cases h
        exact .subscribed t i localTopic networkTopic τ options bus u id hcall hbus hlast
      case h_2 u e hlast =>
        cases h
        exact .busRefused _ t _ bus u e (.inl rfl) rfl hbus hlast
      case h_3 => cases h
    case h_2 => cases h
  | createPublisher t =>
    simp only [step] at h
    split at h
    case h_1 i remoteTopic destination τ hcall =>
      obtain ⟨bus, hbus, h⟩ := Option.bind_eq_some_iff.mp h
      split at h
      case h_1 u hlast =>
        cases h
        exact .advertised t i remoteTopic destination τ bus u hcall hbus hlast
      case h_2 u e hlast =>
        cases h
        exact .busRefused _ t _ bus u e (.inr rfl) rfl hbus hlast
      case h_3 => cases h
    case h_2 => cases h
  | addExport t =>
    simp only [step] at h
    split at h
    case h_1 i localTopic networkTopic block id hcall =>
      split at h
      case h_1 bridge hbridge =>
        cases h
        exact .registered t i localTopic networkTopic block id bridge hcall hbridge
      case h_2 e hbridge =>
        cases h
        exact .rejected t i localTopic networkTopic block id e hcall hbridge
    case h_2 => cases h
  | addImport t =>
    simp only [step] at h
    split at h
    case h_1 i remoteTopic τ hcall =>
      split at h
      case h_1 bridge hbridge =>
        cases h
        exact .routed t i remoteTopic τ bridge hcall hbridge
      case h_2 e hbridge =>
        cases h
        exact .refused _ t e (.inr rfl)
    case h_2 => cases h
  | cancelSubscription t =>
    simp only [step] at h
    split at h
    case h_1 localTopic block id e hcall =>
      obtain ⟨bus, hbus, rfl⟩ := Option.map_eq_some_iff.mp h
      exact .cancelled t localTopic block id e bus hcall hbus
    case h_2 => cases h
  | unsubscribe t =>
    simp only [step] at h
    split at h
    case h_1 localTopic block id e hcall =>
      obtain ⟨bus, hbus, rfl⟩ := Option.map_eq_some_iff.mp h
      exact .unsubscribed t localTopic block id e bus hcall hbus
    case h_2 => cases h
  | makeFrame t now =>
    simp only [step] at h
    split at h
    case h_1 block e p hlambda hentered =>
      split at h
      case h_1 message hmessage =>
        split at h
        case h_1 frame hframe =>
          cases h
          exact .made t now block e p message _ hlambda hentered hmessage
            (.inl ⟨frame, rfl, hframe⟩)
        case h_2 =>
          cases h
          exact .made t now block e p message _ hlambda hentered hmessage (.inr rfl)
      case h_2 => cases h
    case h_2 => cases h
  | emitFrame t =>
    simp only [step] at h
    split at h
    case h_1 block e p frame hlambda hbuilt =>
      split at h
      case isTrue =>
        cases h
        exact .emitted t block e p frame _ _ hlambda hbuilt (.inr rfl)
      case isFalse =>
        cases h
        exact .emitted t block e p frame _ _ hlambda hbuilt (.inl rfl)
    case h_2 => cases h
  | push t =>
    simp only [step] at h
    split at h
    case h_1 block e p frame hlambda hpushing =>
      split at h
      case h_1 outbound hpush =>
        cases h
        exact .pushed t block e p frame outbound hlambda hpushing hpush
      case h_2 =>
        cases h
        exact .overflowed t block e p frame hlambda hpushing
    case h_2 => cases h
  | lambdaEnd t =>
    simp only [step] at h
    split at h
    case h_1 threw hlambda hended =>
      obtain ⟨bus, hbus, rfl⟩ := Option.map_eq_some_iff.mp h
      exact .lambdaEnded t _ _ _ threw bus hlambda hended hbus
    case h_2 => cases h
  | take i =>
    simp only [step] at h
    split at h
    case h_1 frame rest hqueue =>
      cases h
      exact .taken i frame rest hqueue
    case h_2 => cases h
  | stop i =>
    cases h
    exact .stopped i
  | clearExports i =>
    obtain ⟨hstopped, h⟩ := Option.ite_none_right_eq_some.mp h
    cases h
    exact .cleared i hstopped
  | closeOutbound i =>
    obtain ⟨hstopped, h⟩ := Option.ite_none_right_eq_some.mp h
    cases h
    exact .closed i hstopped

/-- The bus takes a step of its own, or none. -/
theorem bus_of_step (h : s.step traits a = some s') :
    s'.bus = s.bus ∨ ∃ act, s.bus.step act = some s'.bus := by
  cases step_view h with
  | bus act bus hallows hbus => exact .inr ⟨act, hbus⟩
  | subscribed t i localTopic networkTopic τ options bus u id hcall hbus => exact .inr ⟨_, hbus⟩
  | busRefused _ t act bus u e hact hregistry hbus => exact .inr ⟨act, hbus⟩
  | cancelled t localTopic block id e bus hcall hbus => exact .inr ⟨_, hbus⟩
  | unsubscribed t localTopic block id e bus hcall hbus => exact .inr ⟨_, hbus⟩
  | advertised t i remoteTopic destination τ bus u hcall hbus => exact .inr ⟨_, hbus⟩
  | lambdaEnded t block e p threw bus hlambda hended hbus => exact .inr ⟨_, hbus⟩
  | _ => exact .inl rfl

theorem bus_reachable (h : (bridgeNodeSystem traits options defaultPublisherId).Reachable s) :
    (busSystem Tid Val).Reachable s.bus := by
  refine h.invariant (P := fun s => (busSystem Tid Val).Reachable s.bus) ?_
    fun s a s' _ hbus hstep => ?_
  · rintro s ⟨bridges, -, rfl⟩
    exact .init rfl
  · rcases bus_of_step hstep with hsame | ⟨act, hact⟩
    · exact hsame ▸ hbus
    · exact hbus.step hact

/-- The message of a callback comes from an export subscription exactly if its block has a
lambda. -/
inductive ExportView (traits : MessageTraits Val) (s s' : BridgeNodeState Tid Val) : Prop
  | quiet : (∀ t, s'.inLambda t = s.inLambda t) → s'.lambdas = s.lambdas →
      (∀ j, (s'.bridges j).flow = (s.bridges j).flow) →
      (∀ block e, s.exports block = some e → s'.exports block = some e) →
      (∀ block e, s'.exports block = some e →
        s'.bus.startedOf block = s.bus.startedOf block ∧
          (s.exports block = some e ∨ s.exports block = none)) → ExportView traits s s'
  | began (t : Tid) (block : ℕ) (e : ExportLambda Ty) (p : Publication Tid Val) :
      s.inLambda t = none →
      (∀ u, s'.inLambda u = if u = t then some (block, e, p) else s.inLambda u) →
      s'.lambdas = s.lambdas → (∀ j, (s'.bridges j).flow = (s.bridges j).flow) →
      s'.exports = s.exports → s.exports block = some e →
      (∀ other, s'.bus.startedOf other =
        if other = block then s.bus.startedOf block ++ [p] else s.bus.startedOf other) →
      ExportView traits s s'
  | made (t : Tid) (now : BitVec 64) (block : ℕ) (e : ExportLambda Ty)
      (p : Publication Tid Val) (message : Val e.localType) (state : LambdaState) :
      s.inLambda t = some (block, e, p) → s.lambdas t = .entered →
      staticPointerCast e.localType p.message = some message →
      (∃ frame, state = .built frame ∧ traits.makeFrame e.networkTopic e.localType message
        (s.bridges e.bridge).bridge.nextSequence (s.bridges e.bridge).bridge.publisherId now =
          .ok frame) ∨ state = .ended true →
      s'.bus = s.bus → s'.exports = s.exports →
      s'.lambdas = Function.update s.lambdas t state →
      (∀ j, (s'.bridges j).flow =
        if j = e.bridge then (s.bridges e.bridge).flow.draw else (s.bridges j).flow) →
      ExportView traits s s'
  | emitted (t : Tid) (block : ℕ) (e : ExportLambda Ty) (p : Publication Tid Val)
      (frame : Frame) (state : LambdaState) : s.inLambda t = some (block, e, p) →
      s.lambdas t = .built frame → state = .pushing frame ∨ state = .ended false →
      s'.bus = s.bus → s'.exports = s.exports →
      s'.lambdas = Function.update s.lambdas t state →
      (∀ j, (s'.bridges j).flow = if j = e.bridge then
        { (s.bridges e.bridge).flow with
          emitted := (s.bridges e.bridge).emitted ++ [⟨block, p, frame⟩] }
        else (s.bridges j).flow) → ExportView traits s s'
  | pushed (t : Tid) (block : ℕ) (e : ExportLambda Ty) (p : Publication Tid Val)
      (frame : Frame) (queued : List (ExportedFrame Tid Val)) :
      s.inLambda t = some (block, e, p) → s.lambdas t = .pushing frame →
      queued = [⟨block, p, frame⟩] ∨ queued = [] → s'.bus = s.bus → s'.exports = s.exports →
      s'.lambdas = Function.update s.lambdas t (.ended false) →
      (∀ j, (s'.bridges j).flow = if j = e.bridge then
        { (s.bridges e.bridge).flow with queued := (s.bridges e.bridge).queued ++ queued }
        else (s.bridges j).flow) → ExportView traits s s'
  | ended (t : Tid) (threw : Bool) : s.lambdas t = .ended threw →
      (∀ u, s'.inLambda u = if u = t then none else s.inLambda u) →
      s'.lambdas = Function.update s.lambdas t .entered →
      (∀ j, (s'.bridges j).flow = (s.bridges j).flow) → s'.exports = s.exports →
      (∀ block, s'.bus.startedOf block = s.bus.startedOf block) → ExportView traits s s'

def ExportsCreated (s : BridgeNodeState Tid Val) : Prop :=
  ∀ block, s.bus.history.created ≤ block → s.exports block = none

/-- A step of the bus that ends no export callback, with whatever else happens to the tables of
the bridges. -/
theorem export_view_of_bus {act : BusAction Tid Val} (hregistry : s.bus.RegistryInvariant)
    (hbus : s.bus.step act = some s'.bus) (hexports : s'.exports = s.exports)
    (hlambdas : s'.lambdas = s.lambdas)
    (hflow : ∀ j, (s'.bridges j).flow = (s.bridges j).flow)
    (hend : ∀ t threw, act = .callbackEnd t threw → s.inLambda t = none) :
    ExportView traits s s' := by
  have hlambda (u : Tid) : s'.inLambda u =
      (s'.bus.callback u).bind fun callback =>
        (s.exports callback.1).map fun e => (callback.1, e, callback.2) := by
    rw [inLambda, hexports]
  cases BusState.callback_view (hregistry.fresh _ le_rfl) hbus with
  | quiet _ _ hcallback hstarted =>
    refine .quiet (fun u => ?_) hlambdas hflow (fun block e he => hexports ▸ he) fun block e he =>
      ⟨hstarted block, .inl (hexports ▸ he)⟩
    rw [hlambda, hcallback, inLambda]
  | began t block sub p _ hsub hactive hnone hcallback hstarted =>
    have hidle : s.inLambda t = none := by rw [inLambda, hnone, Option.bind_none]
    cases he : s.exports block with
    | some e =>
      refine .began t block e p hidle (fun u => ?_) hlambdas hflow hexports he hstarted
      rw [hlambda, hcallback]
      split
      case isTrue => simp only [Option.bind_some, he, Option.map_some]
      case isFalse => rfl
    | none =>
      refine .quiet (fun u => ?_) hlambdas hflow (fun other e' he' => hexports ▸ he')
        fun other e' he' => ?_
      · rw [hlambda, hcallback]
        split
        case isTrue hut => simp only [Option.bind_some, he, Option.map_none, hut, hidle]
        case isFalse => rfl
      · rw [hexports] at he'
        have hne : other ≠ block := by
          rintro rfl
          rw [he] at he'
          cases he'
        exact ⟨by rw [hstarted, if_neg hne], .inl he'⟩
  | ended t threw _ hcallback hstarted =>
    refine .quiet (fun u => ?_) hlambdas hflow (fun block e he => hexports ▸ he) fun block e he =>
      ⟨hstarted block, .inl (hexports ▸ he)⟩
    rw [hlambda, hcallback]
    split
    case isTrue hut => rw [hut, hend t threw rfl, Option.bind_none]
    case isFalse => rfl

/-- Nothing happens to the bus or to the callbacks. -/
theorem export_view_of_same (hbus : s'.bus = s.bus) (hexports : s'.exports = s.exports)
    (hlambdas : s'.lambdas = s.lambdas)
    (hflow : ∀ j, (s'.bridges j).flow = (s.bridges j).flow) : ExportView traits s s' := by
  refine .quiet (inLambda_congr hbus hexports) hlambdas hflow (fun block e he => hexports ▸ he)
    fun block e he => ⟨by rw [hbus], .inl (hexports ▸ he)⟩

/-- A registered export changes the tables of its bridge only. -/
theorem addExport_eq_ok {b b' : NetworkBridge} {remoteTopic : Bytes}
    (h : b.addExport remoteTopic block = .ok b') : remoteTopic ∉ b.exportTopics ∧ b' = { b with
      exportTopics := b.exportTopics ++ [remoteTopic]
      exportCancellers := b.exportCancellers ++ [block] } := by
  unfold NetworkBridge.addExport at h
  split at h
  · cases h
  · split at h
    case isTrue => cases h
    case isFalse hnew => exact ⟨hnew, (Except.ok.inj h).symm⟩

theorem addImport_eq_ok {b b' : NetworkBridge} {remoteTopic : Bytes} {route : ImportRoute}
    (h : b.addImport remoteTopic route = .ok b') :
    b' = { b with imports := b.imports.insert remoteTopic route } := by
  unfold NetworkBridge.addImport at h
  split at h
  · cases h
  · split at h
    case isTrue => cases h
    case isFalse => exact (Except.ok.inj h).symm

theorem export_view (hregistry : s.bus.RegistryInvariant) (hcreated : s.ExportsCreated)
    (h : s.step traits a = some s') : ExportView traits s s' := by
  cases step_view h with
  | bus act bus hallows hbus =>
    refine export_view_of_bus hregistry hbus rfl rfl (fun _ => rfl) fun t threw hact => ?_
    subst hact
    have hfree : s.free t = true := (Bool.and_eq_true_iff.mp hallows).1
    exact Option.isNone_iff_eq_none.mp (Bool.and_eq_true_iff.mp hfree).2
  | exporting | importing | refused | rejected =>
    exact export_view_of_same rfl rfl rfl fun _ => rfl
  | subscribed t i localTopic networkTopic τ options bus u id hcall hbus =>
    have hfresh := hregistry.fresh _ le_rfl
    have hnew := hcreated _ le_rfl
    have hold {other : ℕ} (hne : other ≠ s.bus.history.created) :
        Function.update s.exports s.bus.history.created (some ⟨i, networkTopic, τ⟩) other =
          s.exports other := Function.update_of_ne hne ..
    cases BusState.callback_view hfresh hbus with
    | quiet _ _ hcallback hstarted =>
      refine .quiet (fun u => ?_) rfl (fun _ => rfl) (fun block e he => ?_) fun block e he => ?_
      · -- the block of a running callback is there already
        cases hrunning : s.bus.callback u with
        | none => simp only [inLambda, setCall, hcallback, hrunning, Option.bind_none]
        | some running =>
          obtain ⟨-, sub, hsub, -⟩ := BusState.drain_of_callback hrunning
          have hne : running.1 ≠ s.bus.history.created := by
            intro heq
            rw [heq, hfresh] at hsub
            cases hsub
          simp only [inLambda, setCall, hcallback, hrunning, Option.bind_some, hold hne]
      · have hne : block ≠ s.bus.history.created := by
          rintro rfl
          rw [hnew] at he
          cases he
        exact (hold hne).trans he
      · refine ⟨hstarted block, ?_⟩
        by_cases hne : block = s.bus.history.created
        · exact .inr (hne ▸ hnew)
        · exact .inl ((hold hne).symm.trans he)
  | busRefused _ t act bus u e hact hregistryCall hbus =>
    refine export_view_of_bus hregistry hbus rfl rfl (fun _ => rfl) fun t threw hact => ?_
    subst hact
    cases hregistryCall
  | registered t i localTopic networkTopic block id bridge hcall hbridge =>
    refine export_view_of_same rfl rfl rfl (flow_setBridge_of_eq ?_)
    rw [(addExport_eq_ok hbridge).2]
    rfl
  | routed t i remoteTopic τ bridge hcall hbridge =>
    refine export_view_of_same rfl rfl rfl (flow_setBridge_of_eq ?_)
    rw [addImport_eq_ok hbridge]
    rfl
  | cancelled t localTopic block id e bus hcall hbus =>
    exact export_view_of_bus hregistry hbus rfl rfl (fun _ => rfl) (by simp)
  | unsubscribed t localTopic block id e bus hcall hbus =>
    exact export_view_of_bus hregistry hbus rfl rfl (fun _ => rfl) (by simp)
  | advertised t i remoteTopic destination τ bus u hcall hbus =>
    exact export_view_of_bus hregistry hbus rfl rfl (fun _ => rfl) (by simp)
  | made t now block e p message state hlambda hentered hmessage hstate =>
    exact .made t now block e p message state hlambda hentered hmessage hstate rfl rfl rfl
      (flow_setBridge _)
  | emitted t block e p frame dropped state hlambda hbuilt hstate =>
    exact .emitted t block e p frame state hlambda hbuilt hstate rfl rfl rfl (flow_setBridge _)
  | pushed t block e p frame outbound hlambda hpushing =>
    exact .pushed t block e p frame _ hlambda hpushing (.inl rfl) rfl rfl rfl (flow_setBridge _)
  | overflowed t block e p frame hlambda hpushing =>
    refine .pushed t block e p frame [] hlambda hpushing (.inr rfl) rfl rfl rfl fun j => ?_
    rw [List.append_nil]
    exact flow_setBridge _ j
  | lambdaEnded t block e p threw bus hlambda hended hbus =>
    cases BusState.callback_view (hregistry.fresh _ le_rfl) hbus with
    | quiet _ _ hcallback hstarted hend => exact absurd rfl (hend t threw)
    | ended _ _ _ hcallback hstarted =>
      refine .ended t threw hended (fun u => ?_) rfl (fun _ => rfl) rfl hstarted
      simp only [inLambda, setLambda, hcallback]
      split
      case isTrue => rfl
      case isFalse => rfl
  | taken | stopped | cleared | closed =>
    exact export_view_of_same rfl rfl rfl (flow_setBridge_of_eq rfl)

end BridgeNodeState
end RobotMiddleware
