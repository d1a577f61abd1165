import RobotMiddleware.BridgedRuntime
import RobotMiddleware.BridgeExportOrder
import RobotMiddleware.SystemFamily
import RobotMiddleware.TopicMailboxes

/-! Bridges do not echo: what they emit was published by user code on their own runtime, and the
messages that `receive_frame` injects never reach an export subscription. -/
namespace RobotMiddleware

/-- The message that an action passes to `Publisher::publish`, as a publication with the number of
the call. -/
def BusAction.locals {Tid Ty : Type} {Val : Ty → Type} (number : ℕ) :
    BusAction Tid Val → List (Publication Tid Val)
  | .publish t topic typeId schemaHash message isRemote _ =>
    if isRemote then [] else [⟨number, t, topic, typeId, schemaHash, message, false⟩]
  | _ => []

namespace BusState
variable {Tid Ty : Type} {Val : Ty → Type} {s s' : BusState Tid Val} {a : BusAction Tid Val}
  {locals : List (Publication Tid Val)}

/-- A mailbox that takes no remote messages has accepted none. -/
def LocalOnly (s : BusState Tid Val) : Prop :=
  ∀ block sub, s.boxes block = some sub → sub.options.receiveRemote = false →
    ∀ p ∈ sub.state.history.accepted, p.isRemote = false

/-- `locals` are the calls of `Publisher::publish`, each with its own number, and whatever is
under way without being remote is one of them. -/
structure LocalsKnown (s : BusState Tid Val) (locals : List (Publication Tid Val)) : Prop where
  underWay : ∀ t f, (s.threads t).call.fanout = some f → f.publication.isRemote = false →
    f.publication ∈ locals
  dispatched : ∀ p ∈ s.history.dispatched, p.isRemote = false → p ∈ locals
  numbered : ∀ p ∈ locals, p.call < s.history.publishes
  distinct : (locals.map Publication.call).Nodup

theorem LocalsKnown.initial : LocalsKnown ({} : BusState Tid Val) [] := by
  refine ⟨?_, ?_, ?_, List.nodup_nil⟩
  · rintro t f ⟨⟩
  · rintro p ⟨⟩
  · rintro p ⟨⟩

variable [DecidableEq Tid] [DecidableEq Ty]

theorem LocalOnly.step (hregistry : s.RegistryInvariant) (h : s.LocalOnly)
    (hs : s.step a = some s') : s'.LocalOnly := by
  intro block sub hsub hlocal p hp
  cases hold : s.boxes block with
  | none =>
    -- a new mailbox has accepted nothing
    obtain ⟨-, -, block', -, hinit⟩ := (step_flow hs).newBox hold hsub
    rw [hinit] at hp
    cases hp
  | some old =>
    obtain ⟨state, hbox, hmoved⟩ := box_of_step (hregistry.fresh _ le_rfl) hs hold
    cases hsub.symm.trans hbox
    rcases hmoved with ⟨rfl, -⟩ | ⟨act, haction, hstate⟩
    · exact h block old hold hlocal p hp
    by_cases hpush : ∃ t q isRemote, act = .enqueue t q isRemote
    · obtain ⟨t, q, isRemote, rfl⟩ := hpush
      obtain ⟨-, hremote, -⟩ := boxAction_enqueue haction
      obtain ⟨-, haccepted, -⟩ := MailboxState.enqueue_push hstate
      have hoptions := (MailboxState.orderInvariant_of_reachable
        (hregistry.reachable block old hold)).options_eq
      rw [haccepted] at hp
      rcases old.state.block.enqueuePush_outcome q isRemote with ⟨-, houtcome⟩ | ⟨hskip, -⟩
      · rw [houtcome] at hp
        exact h block old hold hlocal p hp
      · -- the push got past the test of the origin
        have hq : q.isRemote = false := by
          rw [hoptions, hlocal] at hskip
          simp only [Bool.not_false, Bool.and_true, Bool.or_eq_false_iff] at hskip
          rw [hremote, hskip.2]
        split at hp
        case isTrue =>
          rcases List.mem_append.mp hp with hp | hp
          · exact h block old hold hlocal p hp
          · rw [List.mem_singleton.mp hp]
            exact hq
        case isFalse => exact h block old hold hlocal p hp
    · rw [MailboxState.accepted_of_step hstate fun t q isRemote heq =>
        hpush ⟨t, q, isRemote, heq⟩] at hp
      exact h block old hold hlocal p hp

/-- A call under way was under way before, or has just made its snapshot. -/
theorem fanout_of_step (h : s.step a = some s') {t : Tid} {f : Fanout Tid Val}
    (hf : (s'.threads t).call.fanout = some f) :
    (∃ g, (s.threads t).call.fanout = some g ∧ g.publication = f.publication) ∨
      (f.publication.isRemote = false → f.publication ∈ a.locals s.history.publishes) := by
  have hkept (hold : (s.threads t).call.fanout = some f) :
      (∃ g, (s.threads t).call.fanout = some g ∧ g.publication = f.publication) ∨
        (f.publication.isRemote = false → f.publication ∈ a.locals s.history.publishes) :=
    .inl ⟨f, hold, rfl⟩
  -- the call of one thread is replaced by one with the same publication, or with none
  have hset {u : Tid} {call : BusCall Tid Val} {bus : BusState Tid Val}
      (hnew : ((bus.setCall u call).threads t).call.fanout = some f)
      (hthreads : bus.threads = s.threads)
      (hcall : ∀ g, call.fanout = some g → ∃ g', (s.threads u).call.fanout = some g' ∧
        g'.publication = g.publication) :
      (∃ g, (s.threads t).call.fanout = some g ∧ g.publication = f.publication) ∨
        (f.publication.isRemote = false → f.publication ∈ a.locals s.history.publishes) := by
    rw [setCall_threads] at hnew
    split at hnew
    case isTrue htu => exact .inl (htu ▸ hcall f hnew)
    case isFalse => exact hkept (hthreads ▸ hnew)
  have hdrain {u : Tid} {drain : Option ℕ} {bus : BusState Tid Val}
      (hnew : ((bus.setDrain u drain).threads t).call.fanout = some f)
      (hthreads : bus.threads = s.threads) :
      (∃ g, (s.threads t).call.fanout = some g ∧ g.publication = f.publication) ∨
        (f.publication.isRemote = false → f.publication ∈ a.locals s.history.publishes) := by
    rw [setDrain_threads, hthreads] at hnew
    split at hnew
    case isTrue htu => exact hkept (htu ▸ hnew)
    case isFalse => exact hkept hnew
  cases step_view h with
  | advertised | subscribed | unsubscribed | expired | threw | postFailed => exact hkept hf
  | snapshot u p record order huser haccepting hrecord hcontract hcall hpublisher =>
    rw [setCall_threads] at hf
    split at hf
    case isTrue htu =>
      cases hf
      refine .inr fun hlocal => ?_
      obtain ⟨call, publisher, topic, typeId, schemaHash, message, isRemote⟩ := p
      cases hlocal
      cases hcall
      cases hpublisher
      exact List.mem_singleton_self _
    case isFalse => exact hkept hf
  | locked u c hcall =>
    refine hset hf rfl fun g hg => ⟨_, congrArg BusCall.fanout hcall, ?_⟩
    cases hg
    rfl
  | enqueued u p block rest result sub state call outcomes hcall hsub hstate hnext =>
    refine hset hf rfl fun g hg => ⟨_, congrArg BusCall.fanout hcall, ?_⟩
    rcases hnext with ⟨-, rfl, -⟩ | ⟨-, rfl, -⟩
    · cases hg
      rfl
    · cases hg
      rfl
  | posted u c block outcome sub state hcall | cleaned u c block outcome sub state hcall =>
    refine hset hf rfl fun g hg => ⟨_, congrArg BusCall.fanout hcall, ?_⟩
    cases hg
    rfl
  | cleanedThrew | unlocked | stopping | stopReturned => exact hset hf rfl (by rintro g ⟨⟩)
  | owner u a act block sub state call hact hold hnew =>
    refine hset hf rfl fun g hg => ?_
    rw [hnew] at hg
    cases hg
  | startedDrain | drained => exact hdrain hf rfl

/-- What is dispatched was under way. -/
theorem dispatched_of_step (h : s.step a = some s') {p : Publication Tid Val}
    (hp : p ∈ s'.history.dispatched) : p ∈ s.history.dispatched ∨
      ∃ t f, (s.threads t).call.fanout = some f ∧ f.publication = p := by
  cases step_flow h with
  | locked t c hcall =>
    rcases List.mem_append.mp hp with hp | hp
    · exact .inl hp
    · rw [List.mem_singleton.mp hp]
      exact .inr ⟨t, _, congrArg BusCall.fanout hcall, rfl⟩
  | released t q rest s' hcall hk => exact .inl (hk.dispatched ▸ hp)
  | quiet s' hk => exact .inl (hk.dispatched ▸ hp)
  | _ => exact .inl hp

/-- Every call of `publish` gets a number of its own. -/
theorem publishes_of_step (h : s.step a = some s') : s.history.publishes ≤ s'.history.publishes ∧
    (a.locals s.history.publishes ≠ [] → s'.history.publishes = s.history.publishes + 1) := by
  constructor
  · cases step_flow h with
    | snapshot => exact Nat.le_succ _
    | released t q rest s' hcall hk => exact hk.publishes
    | quiet s' hk => exact hk.publishes
    | _ => exact le_rfl
  · intro hlocals
    cases a with
    | publish t topic typeId schemaHash message isRemote order =>
      obtain ⟨-, h⟩ := Option.ite_none_right_eq_some.mp h
      split at h
      case h_1 =>
        obtain ⟨-, h⟩ := Option.ite_none_right_eq_some.mp h
        cases h
        rfl
      case h_2 =>
        cases h
        rfl
    | _ => exact absurd rfl hlocals

theorem LocalsKnown.step (h : s.LocalsKnown locals) (hs : s.step a = some s') :
    s'.LocalsKnown (locals ++ a.locals s.history.publishes) := by
  obtain ⟨hle, hnext⟩ := publishes_of_step hs
  have hnumber {p : Publication Tid Val} (hp : p ∈ a.locals s.history.publishes) :
      p.call = s.history.publishes := by
    cases a with
    | publish t topic typeId schemaHash message isRemote order =>
      rw [BusAction.locals] at hp
      split at hp
      case isTrue => cases hp
      case isFalse => rw [List.mem_singleton.mp hp]
    | _ => cases hp
  have hnew : ((a.locals s.history.publishes).map Publication.call).Nodup := by
    cases a with
    | publish t topic typeId schemaHash message isRemote order =>
      cases isRemote with
      | true => exact List.nodup_nil
      | false => exact List.nodup_singleton _
    | _ => exact List.nodup_nil
  have hold {t : Tid} {f : Fanout Tid Val} (hf : (s.threads t).call.fanout = some f)
      (hlocal : f.publication.isRemote = false) :
      f.publication ∈ locals ++ a.locals s.history.publishes :=
    List.mem_append_left _ (h.underWay t f hf hlocal)
  refine ⟨fun t f hf hlocal => ?_, fun p hp hlocal => ?_, fun p hp => ?_, ?_⟩
  · rcases fanout_of_step hs hf with ⟨g, hg, hsame⟩ | hnew
    · rw [← hsame] at hlocal ⊢
      exact hold hg hlocal
    · exact List.mem_append_right _ (hnew hlocal)
  · rcases dispatched_of_step hs hp with hp | ⟨t, f, hf, rfl⟩
    · exact List.mem_append_left _ (h.dispatched p hp hlocal)
    · exact hold hf hlocal
  · rcases List.mem_append.mp hp with hp | hp
    · exact (h.numbered p hp).trans_le hle
    · rw [hnext (List.ne_nil_of_mem hp), hnumber hp]
      exact Nat.lt_succ_self _
  · rw [List.map_append]
    refine h.distinct.append hnew fun number hknown hadded => ?_
    obtain ⟨p, hp, rfl⟩ := List.mem_map.mp hknown
    obtain ⟨q, hq, heq⟩ := List.mem_map.mp hadded
    have hlt := h.numbered p hp
    rw [hnumber hq] at heq
    omega

end BusState

def BridgedRuntime.note {Tid Ty : Type} {Val : Ty → Type} (s : BridgedRuntime Tid Val)
    (a : RuntimeBridgeAction Tid Val) (locals : List (Publication Tid Val)) :
    List (Publication Tid Val) :=
  match a with
  | .node (.bus act) => locals ++ act.locals s.node.bus.history.publishes
  | _ => locals

def RuntimeBridgeAction.publishes {Tid Ty : Type} {Val : Ty → Type} :
    RuntimeBridgeAction Tid Val → Bool
  | .node (.bus (.publish _ _ _ _ _ isRemote _)) => !isRemote
  | _ => false

/-- Runtimes whose bridges may be connected in any way: each receives any frames in any order,
so also those that another has sent. -/
def runtimeNetwork {R Tid Ty : Type} {Val : Ty → Type} [DecidableEq R] [DecidableEq Tid]
    [DecidableEq Ty] (traits : R → NetworkTraits Val) (options : R → ℕ → NetworkBridgeOptions)
    (defaultPublisherId : R → ℕ → BitVec 64) :
    TransitionSystem (R → BridgedRuntime Tid Val × List (Publication Tid Val))
      (R × RuntimeBridgeAction Tid Val) :=
  .family fun r =>
    (bridgedRuntimeSystem (traits r) (options r) (defaultPublisherId r)).recorded []
      BridgedRuntime.note

namespace BridgedRuntime
variable {Tid Ty : Type} {Val : Ty → Type} [DecidableEq Tid] [DecidableEq Ty]
  {traits : NetworkTraits Val} {options : ℕ → NetworkBridgeOptions}
  {defaultPublisherId : ℕ → BitVec 64} {s s' : BridgedRuntime Tid Val}
  {locals : List (Publication Tid Val)}

structure EchoInvariant (s : BridgedRuntime Tid Val) (locals : List (Publication Tid Val)) :
    Prop where
  localOnly : s.node.bus.LocalOnly
  known : s.node.bus.LocalsKnown locals

omit [DecidableEq Tid] [DecidableEq Ty] in
theorem note_of_quiet {a : RuntimeBridgeAction Tid Val} (h : a.publishes = false) :
    s.note a locals = locals := by
  cases a with
  | node b =>
    cases b with
    | bus act =>
      refine (congrArg (locals ++ ·) ?_).trans (List.append_nil locals)
      cases act with
      | publish t topic typeId schemaHash message isRemote order =>
        cases isRemote with
        | true => rfl
        | false => cases h
      | _ => rfl
    | _ => rfl
  | _ => rfl

/-- The bus moves as an action of user code tells it to, or no call of `publish` is made. -/
theorem bus_of_node (locals : List (Publication Tid Val)) {a : BridgeNodeAction Tid Val}
    {node : BridgeNodeState Tid Val}
    (h : s.node.step traits.toMessageTraits a = some node) :
    (node.bus = s.node.bus ∧ s.note (.node a) locals = locals) ∨
      ∃ act, s.node.bus.step act = some node.bus ∧
        s.note (.node a) locals = locals ++ act.locals s.node.bus.history.publishes := by
  have hcreated {act : BusAction Tid Val} {bus : BusState Tid Val}
      (hbus : s.node.bus.step act = some bus) (hnode : node.bus = bus)
      (hnote : s.note (.node a) locals = locals) (hact : ∀ number, act.locals number = []) :
      (node.bus = s.node.bus ∧ s.note (.node a) locals = locals) ∨
        ∃ act, s.node.bus.step act = some node.bus ∧
          s.note (.node a) locals = locals ++ act.locals s.node.bus.history.publishes := by
    refine .inr ⟨act, hnode ▸ hbus, ?_⟩
    rw [hnote, hact, List.append_nil]
  cases BridgeNodeState.step_view h with
  | bus act bus hallows hbus => exact .inr ⟨act, hbus, rfl⟩
  | subscribed t i localTopic networkTopic τ options bus u id hcall hbus =>
    exact hcreated hbus rfl rfl fun _ => rfl
  | cancelled t localTopic block id e bus hcall hbus => exact hcreated hbus rfl rfl fun _ => rfl
  | unsubscribed t localTopic block id e bus hcall hbus => exact hcreated hbus rfl rfl fun _ => rfl
  | advertised t i remoteTopic destination τ bus u hcall hbus =>
    exact hcreated hbus rfl rfl fun _ => rfl
  | lambdaEnded t block e p threw bus hlambda hended hbus => exact hcreated hbus rfl rfl fun _ => rfl
  | busRefused _ t act bus u e ha =>
    rcases ha with rfl | rfl
    · simp only [BridgeNodeState.step] at h
      split at h
      case h_1 =>
        obtain ⟨bus', hbus', h⟩ := Option.bind_eq_some_iff.mp h
        have hnode : bus' = bus := by
          split at h
          case h_1 =>
            have hbus := congrArg BridgeNodeState.bus (Option.some.inj h)
            exact hbus
          case h_2 =>
            have hbus := congrArg BridgeNodeState.bus (Option.some.inj h)
            exact hbus
          case h_3 => cases h
        exact hcreated (hnode ▸ hbus') rfl rfl fun _ => rfl
      case h_2 => cases h
    · simp only [BridgeNodeState.step] at h
      split at h
      case h_1 =>
        obtain ⟨bus', hbus', h⟩ := Option.bind_eq_some_iff.mp h
        have hnode : bus' = bus := by
          split at h
          case h_1 =>
            have hbus := congrArg BridgeNodeState.bus (Option.some.inj h)
            exact hbus
          case h_2 =>
            have hbus := congrArg BridgeNodeState.bus (Option.some.inj h)
            exact hbus
          case h_3 => cases h
        exact hcreated (hnode ▸ hbus') rfl rfl fun _ => rfl
      case h_2 => cases h
  | refused a t e ha =>
    refine .inl ⟨rfl, ?_⟩
    rcases ha with ha | rfl
    · cases a <;> first | rfl | cases ha
    · rfl
  | _ => exact .inl ⟨rfl, rfl⟩

theorem EchoInvariant.step {a : RuntimeBridgeAction Tid Val}
    (hregistry : s.node.bus.RegistryInvariant) (h : s.EchoInvariant locals)
    (hs : s.step traits a = some s') : s'.EchoInvariant (s.note a locals) := by
  have hview := node_view hs
  generalize hnode : s'.node = node at hview
  suffices hbus : node.bus.LocalOnly ∧ node.bus.LocalsKnown (s.note a locals) by
    exact ⟨hnode ▸ hbus.1, hnode ▸ hbus.2⟩
  cases hview with
  | node a node hstep =>
    rcases bus_of_node locals hstep with ⟨hbus, hnote⟩ | ⟨act, hbus, hnote⟩
    · rw [hbus, hnote]
      exact ⟨h.localOnly, h.known⟩
    · rw [hnote]
      exact ⟨h.localOnly.step hregistry hbus, h.known.step hbus⟩
  | remote t order handler message node hstep =>
    cases BridgeNodeState.step_view hstep with
    | bus act bus hallows hbus =>
      have hknown := h.known.step hbus
      rw [BusAction.locals, if_pos rfl, List.append_nil] at hknown
      exact ⟨h.localOnly.step hregistry hbus, hknown⟩
    | refused _ u e ha => rcases ha with ha | ha <;> cases ha
    | busRefused _ u act bus v e ha => rcases ha with ha | ha <;> cases ha
  | receiving a ha =>
    have hnote : s.note a locals = locals := by
      cases a with
      | node b => exact absurd rfl (ha b)
      | _ => rfl
    rw [hnote]
    exact ⟨h.localOnly, h.known⟩

end BridgedRuntime

/-- The frames that the bridges of a runtime have passed to `emit_frame`. -/
structure NoEcho {Tid Ty : Type} {Val : Ty → Type} [DecidableEq Tid] [DecidableEq Ty]
    (traits : NetworkTraits Val) (s : BridgedRuntime Tid Val)
    (locals : List (Publication Tid Val)) : Prop where
  /-- Each call of `publish` is listed once. -/
  locals_distinct : (locals.map Publication.call).Nodup
  /-- A frame was built from a message that was passed to `publish`, not to `publish_remote`. -/
  origin : ∀ i, ∀ x ∈ (s.node.bridges i).emitted, x.publication ∈ locals ∧
    x.publication.isRemote = false ∧ s.node.MadeFor traits.toMessageTraits i x
  /-- An export subscription emits at most one frame for a call. -/
  once : ∀ i block, ((messagesOf (s.node.bridges i).emitted block).map Publication.call).Nodup
  emitted_le : ∀ i block, (messagesOf (s.node.bridges i).emitted block).length ≤ locals.length
  /-- What `receive_frame` injects comes into no mailbox of an export subscription. -/
  accepted_local : ∀ block e sub, s.node.exports block = some e →
    s.node.bus.boxes block = some sub → ∀ p ∈ sub.state.history.accepted, p ∈ locals

namespace BridgedRuntime
variable {Tid Ty : Type} {Val : Ty → Type} [DecidableEq Tid] [DecidableEq Ty]
  {traits : NetworkTraits Val} {options : ℕ → NetworkBridgeOptions}
  {defaultPublisherId : ℕ → BitVec 64} {locals : List (Publication Tid Val)}
  {x : BridgedRuntime Tid Val × List (Publication Tid Val)}

theorem echoInvariant_of_reachable
    (h : ((bridgedRuntimeSystem traits options defaultPublisherId).recorded [] note).Reachable x) :
    x.1.EchoInvariant x.2 := by
  refine h.invariant (P := fun x => x.1.EchoInvariant x.2) ?_ fun y a z hr hy hstep => ?_
  · rintro ⟨s, locals⟩ ⟨⟨⟨bridges, -, hnode⟩, -⟩, hlocals⟩
    cases hlocals
    refine ⟨?_, ?_⟩
    · intro block sub hsub
      rw [hnode] at hsub
      cases hsub
    · rw [hnode]
      exact .initial
  · obtain ⟨hs, hlocals⟩ := TransitionSystem.recorded_step_iff.mp hstep
    have hregistry := (BridgeNodeState.exportInvariant_of_reachable
      (node_reachable (TransitionSystem.Reachable.of_recorded hr))).registry
    rw [hlocals]
    exact hy.step hregistry hs

theorem noEcho_of_reachable
    (h : ((bridgedRuntimeSystem traits options defaultPublisherId).recorded [] note).Reachable x) :
    NoEcho traits x.1 x.2 := by
  have hnode := node_reachable (TransitionSystem.Reachable.of_recorded h)
  have hexport := BridgeNodeState.exportInvariant_of_reachable hnode
  have hdispatch := BusState.dispatchInvariant_of_reachable (BridgeNodeState.bus_reachable hnode)
  have hecho := echoInvariant_of_reachable h
  have haccepted (block : ℕ) (e : ExportLambda Ty) (sub : BusSubscription Tid Val)
      (he : x.1.node.exports block = some e) (hsub : x.1.node.bus.boxes block = some sub)
      (p : Publication Tid Val) (hp : p ∈ sub.state.history.accepted) :
      p ∈ x.2 ∧ p.isRemote = false := by
    obtain ⟨sub', hsub', -, hlocal⟩ := hexport.registered block e he
    cases hsub.symm.trans hsub'
    have hremote := hecho.localOnly block sub hsub hlocal p hp
    have hmem := (hdispatch.accepted block sub hsub).subset hp
    exact ⟨hecho.known.dispatched p (List.mem_of_mem_filter hmem) hremote, hremote⟩
  -- the frames of a block follow the callbacks that its mailbox has started
  have hmessages (i block : ℕ) : (messagesOf (x.1.node.bridges i).emitted block = []) ∨
      ∃ e sub, x.1.node.exports block = some e ∧ x.1.node.bus.boxes block = some sub ∧
        (messagesOf (x.1.node.bridges i).emitted block).Sublist sub.state.history.accepted := by
    cases he : x.1.node.exports block with
    | none =>
      left
      apply messagesOf_eq_nil
      rintro y hy rfl
      exact hexport.logs.emitted.exported i y hy he
    | some e =>
      right
      obtain ⟨sub, hsub, -⟩ := hexport.registered block e he
      have hbegun := hexport.logs.emitted.begun i block e he
      rw [BusState.startedOf_eq hsub] at hbegun
      have horder := MailboxState.orderInvariant_of_reachable
        (hexport.registry.reachable block sub hsub)
      exact ⟨e, sub, rfl, hsub, hbegun.trans horder.started_sublist⟩
  have honce (i block : ℕ) :
      ((messagesOf (x.1.node.bridges i).emitted block).map Publication.call).Nodup := by
    rcases hmessages i block with hnone | ⟨e, sub, he, hsub, hsublist⟩
    · rw [hnone]
      exact List.nodup_nil
    · have hdispatched := (hsublist.trans (hdispatch.accepted block sub hsub)).trans
        List.filter_sublist
      exact hdispatch.distinct.sublist (hdispatched.map Publication.call)
  refine ⟨hecho.known.distinct, fun i y hy => ?_, honce, fun i block => ?_,
    fun block e sub he hsub p hp => (haccepted block e sub he hsub p hp).1⟩
  · have hmem : y.publication ∈ messagesOf (x.1.node.bridges i).emitted y.block :=
      List.mem_map_of_mem (List.mem_filter.mpr ⟨hy, by simp⟩)
    rcases hmessages i y.block with hnone | ⟨e, sub, he, hsub, hsublist⟩
    · rw [hnone] at hmem
      cases hmem
    · obtain ⟨hlocal, hremote⟩ := haccepted y.block e sub he hsub _ (hsublist.subset hmem)
      exact ⟨hlocal, hremote, (hexport.flow i).made y (.inr (.inl hy))⟩
  · rcases hmessages i block with hnone | ⟨e, sub, he, hsub, hsublist⟩
    · rw [hnone]
      exact Nat.zero_le _
    · apply ((honce i block).of_map).length_le_of_subset
      intro p hp
      exact (haccepted block e sub he hsub p (hsublist.subset hp)).1

end BridgedRuntime

/-- No echo through bridges, in any network of runtimes. While no user code publishes, the frames
that are received cause no others. -/
theorem no_echo {R Tid Ty : Type} {Val : Ty → Type} [DecidableEq R] [DecidableEq Tid]
    [DecidableEq Ty] {traits : R → NetworkTraits Val} {options : R → ℕ → NetworkBridgeOptions}
    {defaultPublisherId : R → ℕ → BitVec 64}
    {x : R → BridgedRuntime Tid Val × List (Publication Tid Val)}
    (h : (runtimeNetwork traits options defaultPublisherId).Reachable x) :
    (∀ r, NoEcho (traits r) (x r).1 (x r).2) ∧
    ∀ actions y, (runtimeNetwork traits options defaultPublisherId).run x actions = some y →
      (∀ a ∈ actions, a.2.publishes = false) → ∀ r i,
        (∀ block, (messagesOf ((y r).1.node.bridges i).emitted block).length ≤ (x r).2.length) ∧
        ∀ e ∈ ((y r).1.node.bridges i).emitted, e.publication ∈ (x r).2 := by
  refine ⟨fun r => BridgedRuntime.noEcho_of_reachable (h.member r), fun actions y hrun hquiet => ?_⟩
  have hlocals : ∀ r, (y r).2 = (x r).2 := by
    refine TransitionSystem.family_run_invariant (fun r z => z.2 = (x r).2)
      (fun a => a.publishes = false) (fun r z a z' hz ha hstep => ?_) hquiet hrun fun _ => rfl
    obtain ⟨-, hnote⟩ := TransitionSystem.recorded_step_iff.mp hstep
    rw [hnote, BridgedRuntime.note_of_quiet ha, hz]
  intro r i
  have hecho := BridgedRuntime.noEcho_of_reachable ((h.run hrun).member r)
  rw [hlocals r] at hecho
  exact ⟨hecho.emitted_le i, fun e he => (hecho.origin i e he).1⟩

/-- Two runtimes that export and import one topic. The second receives what the first sent and
publishes it for its own subscriptions; its bridge has nothing to emit. -/
theorem no_echo_pair :
    let traits : NetworkTraits (fun _ : Fin 1 => ℕ) :=
      { typeId := fun _ => 7, schemaHash := fun _ => 9
        serialize := fun _ n => .ok [BitVec.ofNat 8 n]
        deserialize := fun _ payload => .ok (payload.head?.elim 0 BitVec.toNat) }
    ∃ x : Fin 2 → BridgedRuntime (Fin 2) (fun _ : Fin 1 => ℕ) × _,
      ((x 0).1.node.bridges 0).emitted.length = 1 ∧ ((x 1).1.node.bridges 0).emitted.length = 0 ∧
      ((x 1).1.imports 0).bridge.imported = 1 ∧ ∀ r, NoEcho traits (x r).1 (x r).2 := by
  intro traits
  let bridge : NetworkBridge := { publisherId := 1, outbound := { capacity := 1024 } }
  let importer : BridgeImport := { maxDedupEntries := 4096, maxDedupEntries_pos := by decide }
  let configure : List (RuntimeBridgeAction (Fin 2) fun _ : Fin 1 => ℕ) :=
    [.node (.exportTopic 0 0 [1] [] 0 {}), .node (.createSubscription 0), .node (.addExport 0),
      .node (.importTopic 0 0 [1] [] 0), .node (.createPublisher 0), .node (.addImport 0)]
  let frame : Frame := { typeId := 7, schemaHash := 9, publisherId := 1, sendTimeNs := 100
                         topic := [1], payload := [40] }
  obtain ⟨x, hx, hp⟩ := (runtimeNetwork (fun _ : Fin 2 => traits) (fun _ _ => {})
    fun _ _ => 1).exists_reachable_of_run
    (fun _ => ({ node := { bridges := fun _ => { bridge := bridge } }
                 imports := fun _ => { bridge := importer } }, []))
    (configure.map (Prod.mk 0) ++ configure.map (Prod.mk 1) ++
      [(0, .node (.bus (.publish 0 [1] 7 9 ⟨0, 40⟩ false [0]))), (0, .node (.bus (.lockDispatch 0))),
        (0, .node (.bus (.enqueue 0))), (0, .node (.bus (.post 0 .accepted))),
        (0, .node (.bus (.unlockDispatch 0))), (0, .node (.bus (.startDrain 1 0))),
        (0, .node (.bus (.pop 1))), (0, .node (.makeFrame 1 100)), (0, .node (.emitFrame 1)),
        (0, .node (.push 1)), (0, .node (.take 0)),
        (1, .receive 0 0 frame), (1, .lookup 0), (1, .reserve 0), (1, .enter 0), (1, .handle 0 [0]),
        (1, .node (.bus (.lockDispatch 0))), (1, .node (.bus (.enqueue 0))),
        (1, .node (.bus (.unlockDispatch 0))), (1, .handled 0)])
    (fun x => ((x 0).1.node.bridges 0).emitted.length == 1 &&
      (((x 1).1.node.bridges 0).emitted.length == 0 &&
        ((x 1).1.imports 0).bridge.imported == 1))
    (fun _ => ⟨⟨⟨_, fun _ => rfl, rfl⟩, _, fun _ => rfl, rfl⟩, rfl⟩) (by decide +kernel)
  simp only [Bool.and_eq_true, beq_iff_eq] at hp
  exact ⟨x, hp.1, hp.2.1, hp.2.2, (no_echo hx).1⟩

end RobotMiddleware
