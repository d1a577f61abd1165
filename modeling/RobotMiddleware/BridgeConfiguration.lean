import RobotMiddleware.BridgeExportOrder

/-! What a call of `export_topic` or `import_topic` leaves behind when it throws. -/
namespace RobotMiddleware

/-- Publishing and draining: the steps of a bus that configure nothing. -/
def BusAction.traffic {Tid Ty : Type} {Val : Ty → Type} : BusAction Tid Val → Bool
  | .publish _ _ _ _ _ _ _ | .lockDispatch _ | .enqueue _ | .post _ _ | .cleanup _
  | .unlockDispatch _ | .startDrain _ _ | .pop _ | .callbackEnd _ _ | .finish _ => true
  | _ => false

namespace TopicBus
variable {Ty : Type} {b : TopicBus Ty} {topic : Bytes} {record : TopicRecord Ty}

theorem subscriptionsOf_unsubscribe_eq (id : BitVec 64) (u : Bytes) :
    (b.unsubscribe topic id).subscriptionsOf u =
      if u = topic then (b.subscriptionsOf u).filter fun entry => entry.1 != id
      else b.subscriptionsOf u := by
  unfold unsubscribe
  split
  case h_1 record hrecord =>
    rw [subscriptionsOf_emplace]
    split
    case isTrue hu => rw [hu, subscriptionsOf_of_lookup hrecord]
    case isFalse => rfl
  case h_2 hnone =>
    split
    case isTrue hu =>
      rw [hu, subscriptionsOf, hnone]
      rfl
    case isFalse => rfl

end TopicBus

namespace BusState
variable {Tid Ty : Type} {Val : Ty → Type} [DecidableEq Tid]
  {s s' : BusState Tid Val} {a : BusAction Tid Val} {topic : Bytes}

def liveOf (s : BusState Tid Val) (topic : Bytes) : List (BitVec 64 × ℕ) :=
  (s.bus.subscriptionsOf topic).filter fun entry => !s.expired entry.2

def ListedIds (s : BusState Tid Val) : Prop :=
  ∀ topic, ∀ entry ∈ s.bus.subscriptionsOf topic, entry.1 = subscriptionId entry.2

variable [DecidableEq Ty]

omit [DecidableEq Ty] in
theorem ListedIds.step (h : s.ListedIds) (htypes : TypeInvariant s) (hs : FlowView s s') :
    s'.ListedIds := by
  cases hs with
  | advertised topic contract bus returns hregisters =>
    intro u entry hentry
    simp only [hregisters.subscriptionsOf] at hentry
    exact h u entry hentry
  | subscribed topic contract options bus block returns hregisters hcreate =>
    intro u entry hentry
    have hold (hmem : entry ∈ bus.subscriptionsOf u) : entry.1 = subscriptionId entry.2 := by
      rw [hregisters.subscriptionsOf] at hmem
      exact h u entry hmem
    rcases TopicBus.subscriptionsOf_addSubscription
      { bus with nextSubscriptionId := bus.nextSubscriptionId + 1 } topic u
      bus.nextSubscriptionId s.history.created with hsame | ⟨-, hnew⟩
    · exact hold (hsame ▸ hentry)
    · simp only [hnew] at hentry
      rcases List.mem_append.mp hentry with hmem | hmem
      · exact hold hmem
      · rw [List.mem_singleton.mp hmem, hregisters.nextSubscriptionId, htypes.nextId]
  | snapshot t p record order result hcall hrecord =>
    intro u entry hentry
    exact h u entry
      ((TopicBus.subscriptionsOf_emplace_sublist hrecord List.filter_sublist u).subset hentry)
  | locked => exact h
  | enqueued => exact h
  | released t p rest s' hcall hk =>
    exact fun u entry hentry => h u entry ((hk.listed u).subset hentry)
  | quiet s' hk => exact fun u entry hentry => h u entry ((hk.listed u).subset hentry)

theorem listedIds_of_reachable (h : (busSystem Tid Val).Reachable s) : s.ListedIds := by
  refine h.invariant (P := ListedIds) ?_ fun s a s' hr ih hs =>
    ih.step (typeInvariant_of_reachable hr) (step_flow hs)
  rintro s rfl topic entry hentry
  cases hentry

/-- Traffic prunes what has expired, and changes nothing else of the registry. -/
structure Undisturbed (s s' : BusState Tid Val) : Prop where
  contracts : ∀ topic, s'.bus.contractOf topic = s.bus.contractOf topic
  live : ∀ topic, s'.liveOf topic = s.liveOf topic
  expired : s'.expired = s.expired
  created : s'.history.created = s.history.created

theorem undisturbed_of_traffic (h : s.step a = some s') (htraffic : a.traffic = true) :
    Undisturbed s s' := by
  cases step_view h with
  | snapshot t p record order huser haccepting hrecord =>
    refine ⟨TopicBus.contractOf_emplace_of_lookup hrecord _, fun topic => ?_, rfl, rfl⟩
    simp only [liveOf, setCall, TopicBus.subscriptionsOf_emplace]
    split
    case isTrue htopic =>
      rw [htopic, TopicBus.subscriptionsOf_of_lookup hrecord]
      exact List.filter_filter.trans (by simp)
    case isFalse => rfl
  | owner t a act block sub state call hact => cases hact <;> cases htraffic
  | advertised | subscribed | unsubscribed | expired | stopping | stopReturned => cases htraffic
  | _ => exact ⟨fun _ => rfl, fun _ => rfl, rfl, rfl⟩

omit [DecidableEq Tid] [DecidableEq Ty] in
theorem Undisturbed.refl (s : BusState Tid Val) : Undisturbed s s :=
  ⟨fun _ => rfl, fun _ => rfl, rfl, rfl⟩

omit [DecidableEq Tid] [DecidableEq Ty] in
theorem Undisturbed.trans {s'' : BusState Tid Val} (h : Undisturbed s s')
    (h' : Undisturbed s' s'') : Undisturbed s s'' :=
  ⟨fun u => (h'.contracts u).trans (h.contracts u), fun u => (h'.live u).trans (h.live u),
    h'.expired.trans h.expired, h'.created.trans h.created⟩

/-- A registration that throws has changed nothing. -/
theorem undisturbed_of_error {u : Tid} {e : MiddlewareError} (h : s.step a = some s')
    (hregistry : a.registryCall = true)
    (hlast : s'.history.returns.getLast? = some (u, .error e)) : Undisturbed s s' := by
  cases step_view h with
  | advertised => simp [addReturn] at hlast
  | subscribed => simp [addReturn] at hlast
  | snapshot => exact undisturbed_of_traffic h rfl
  | threw => exact ⟨fun _ => rfl, fun _ => rfl, rfl, rfl⟩
  | owner t a act block sub state call hact => cases hact <;> cases hregistry
  | drained t a act block sub state drain hact => cases hact <;> cases hregistry
  | _ => cases hregistry

def Inactive (s : BusState Tid Val) (block : ℕ) : Prop :=
  ∃ sub, s.boxes block = some sub ∧ sub.state.block.active = false

theorem Inactive.step {block : ℕ} (hinactive : s.Inactive block) (hregistry : s.RegistryInvariant)
    (h : s.step a = some s') : s'.Inactive block := by
  obtain ⟨sub, hsub, hactive⟩ := hinactive
  obtain ⟨state, hbox, hstate⟩ := inactive_of_step hregistry h hsub hactive
  exact ⟨_, hbox, hstate⟩

/-- No callback of a cancelled subscription begins. -/
theorem Inactive.startedOf_eq {block : ℕ} (hinactive : s.Inactive block)
    (hregistry : s.RegistryInvariant) (h : s.step a = some s') :
    s'.startedOf block = s.startedOf block := by
  cases callback_view (hregistry.fresh _ le_rfl) h with
  | quiet _ _ _ hstarted => exact hstarted block
  | ended _ _ _ _ hstarted => exact hstarted block
  | began t other sub p _ hsub hactive _ _ hstarted =>
    rw [hstarted, if_neg]
    rintro rfl
    obtain ⟨sub', hsub', hcancelled⟩ := hinactive
    cases hsub.symm.trans hsub'
    rw [hactive] at hcancelled
    cases hcancelled

theorem inactive_of_cancel {t : Tid} {block : ℕ} (h : s.step (.cancel t block) = some s') :
    s'.Inactive block ∧ Undisturbed s s' := by
  obtain ⟨-, h⟩ := Option.ite_none_right_eq_some.mp h
  obtain ⟨sub, state, hsub, hstate, rfl⟩ := onBox_eq_some h
  obtain ⟨-, hstate⟩ := Option.ite_none_right_eq_some.mp hstate
  cases hstate
  exact ⟨⟨_, Function.update_self .., rfl⟩, fun _ => rfl, fun _ => rfl, rfl, rfl⟩

structure Records (topic : Bytes) (contract : TypeContract Ty) (s s' : BusState Tid Val) : Prop where
  contracts : ∀ u, s'.bus.contractOf u = if u = topic then some contract else s.bus.contractOf u
  agrees : s.bus.contractOf topic = none ∨ s.bus.contractOf topic = some contract

theorem advertised_of_step {t u : Tid} {contract : TypeContract Ty}
    (h : s.step (.advertise t topic contract) = some s')
    (hlast : s'.history.returns.getLast? = some (u, .advertised)) :
    Records topic contract s s' ∧ (∀ v, s'.liveOf v = s.liveOf v) ∧
      s'.history.created = s.history.created := by
  cases step_view h with
  | advertised _ _ _ bus _ _ hregisters =>
    refine ⟨⟨hregisters.contractOf, hregisters.agrees⟩, fun v => ?_, rfl⟩
    show (bus.subscriptionsOf v).filter _ = _
    rw [hregisters.subscriptionsOf]
    rfl
  | threw => simp [addReturn] at hlast
  | owner _ _ act _ _ _ _ hact => cases hact
  | drained _ _ act _ _ _ _ hact => cases hact

/-- A subscription is listed under its topic only, and nothing else is. -/
theorem subscribed_of_step {t u : Tid} {contract : TypeContract Ty} {options : SubscriptionOptions}
    {id : BitVec 64} (hregistry : s.RegistryInvariant) (htypes : TypeInvariant s)
    (h : s.step (.subscribe t topic contract options true) = some s')
    (hlast : s'.history.returns.getLast? = some (u, .subscribed id)) :
    Records topic contract s s' ∧ id = subscriptionId s.history.created ∧
      s'.history.created = s.history.created + 1 ∧ (∀ v ≠ topic, s'.liveOf v = s.liveOf v) ∧
      (s'.liveOf topic).filter (fun entry => entry.2 ≠ s.history.created) = s.liveOf topic := by
  cases step_view h with
  | subscribed _ _ _ _ _ bus block _ _ hregisters hcreate =>
    have hlisted := fun v => TopicBus.subscriptionsOf_addSubscription
      { bus with nextSubscriptionId := bus.nextSubscriptionId + 1 } topic v
      bus.nextSubscriptionId s.history.created
    -- what was listed before has a smaller number
    have hkept (v : Bytes) : (s.liveOf v).filter (fun entry => entry.2 ≠ s.history.created) =
        s.liveOf v := by
      refine List.filter_eq_self.mpr fun entry hentry => decide_eq_true ?_
      exact (hregistry.listed_lt (List.mem_of_mem_filter hentry)).ne
    have hold (v : Bytes) : (bus.subscriptionsOf v).filter (fun entry => !s.expired entry.2) =
        s.liveOf v := by
      rw [hregisters.subscriptionsOf]
      rfl
    refine ⟨⟨fun v => ?_, hregisters.agrees⟩, ?_, rfl, fun v hv => ?_, ?_⟩
    · exact (TopicBus.contractOf_addSubscription ..).trans (hregisters.contractOf v)
    · simp only [addReturn, List.getLast?_append, List.getLast?_singleton, Option.some_or,
        Option.some.injEq, Prod.mk.injEq, BusReturn.subscribed.injEq] at hlast
      rw [← hlast.2, hregisters.nextSubscriptionId, htypes.nextId]
    · rcases hlisted v with hsame | ⟨hvt, -⟩
      · exact (congrArg _ hsame).trans (hold v)
      · exact absurd hvt hv
    · rcases hlisted topic with hsame | ⟨-, hnew⟩
      · exact (congrArg _ ((congrArg _ hsame).trans (hold topic))).trans (hkept topic)
      · refine (congrArg _ ((congrArg _ hnew).trans (List.filter_append ..))).trans ?_
        rw [List.filter_append]
        refine (congrArg (_ ++ ·) ?_).trans ((List.append_nil _).trans
          ((congrArg _ (hold topic)).trans (hkept topic)))
        rw [List.filter_filter]
        simp
  | threw => simp [addReturn] at hlast
  | owner _ _ act _ _ _ _ hact => cases hact
  | drained _ _ act _ _ _ _ hact => cases hact

/-- While ids are different, an id stands for its control block. -/
theorem unsubscribed_of_step {t : Tid} {block : ℕ} (hregistry : s.RegistryInvariant)
    (hids : s.ListedIds) (hblock : block < s.history.created)
    (hfew : s.history.created ≤ 2 ^ 64)
    (h : s.step (.unsubscribe t topic (subscriptionId block)) = some s') :
    (∀ u ≠ topic, s'.liveOf u = s.liveOf u) ∧
      s'.liveOf topic = (s.liveOf topic).filter fun entry => entry.2 ≠ block := by
  obtain ⟨-, h⟩ := Option.ite_none_right_eq_some.mp h
  cases h
  refine ⟨fun u hu => ?_, ?_⟩
  · show ((s.bus.unsubscribe topic _).subscriptionsOf u).filter _ = _
    rw [TopicBus.subscriptionsOf_unsubscribe_eq, if_neg hu]
    rfl
  · show ((s.bus.unsubscribe topic _).subscriptionsOf topic).filter _ = _
    rw [TopicBus.subscriptionsOf_unsubscribe_eq, if_pos rfl, liveOf, List.filter_filter,
      List.filter_filter]
    refine List.filter_congr fun entry hentry => ?_
    have hid := hids topic entry hentry
    have hlt := hregistry.listed_lt hentry
    have hsame : entry.1 = subscriptionId block ↔ entry.2 = block := by
      rw [hid]
      exact ⟨subscriptionId_inj (hlt.trans_le hfew) (hblock.trans_le hfew),
        congrArg subscriptionId⟩
    by_cases heq : entry.2 = block
    · simp [hsame.mpr heq, heq]
    · simp [mt hsame.mp heq, heq]

end BusState
/-- What a call of `export_topic` or `import_topic` is to configure: the topic on the bus, the one
in the tables of the bridge, and the message type. -/
structure Configuration (Ty : Type) where
  bridge : ℕ
  localTopic : Bytes
  networkTopic : Bytes
  localType : Ty

def Configuration.tableErrors {Ty : Type} (c : Configuration Ty) : List MiddlewareError :=
  [NetworkBridge.stoppedError,
    ⟨"bridge export topic is already registered: " ++ text c.networkTopic⟩,
    ⟨"bridge import topic is already registered: " ++ text c.networkTopic⟩]

def NetworkBridge.routes (b : NetworkBridge) :
    List Bytes × List ℕ × AList (fun _ : Bytes => ImportRoute) :=
  (b.exportTopics, b.exportCancellers, b.imports)

namespace BridgeNodeAction
variable {Tid Ty : Type} {Val : Ty → Type}

def configuration : BridgeNodeAction Tid Val → Option (Tid × Configuration Ty)
  | .exportTopic t i localTopic remoteTopic τ _ =>
    some (t, ⟨i, localTopic, if remoteTopic = [] then localTopic else remoteTopic, τ⟩)
  | .importTopic t i remoteTopic localTopic τ =>
    some (t, ⟨i, if localTopic = [] then remoteTopic else localTopic, remoteTopic, τ⟩)
  | _ => none

def continues [DecidableEq Tid] (t : Tid) : BridgeNodeAction Tid Val → Bool
  | .createSubscription u | .addExport u | .cancelSubscription u | .unsubscribe u
  | .createPublisher u | .addImport u => u = t
  | _ => false

/-- Publishing, callbacks, the outbound queue, and the flags that `stop` sets first. -/
def traffic : BridgeNodeAction Tid Val → Bool
  | .bus a => a.traffic
  | .makeFrame _ _ | .emitFrame _ | .push _ | .lambdaEnd _ | .take _ | .stop _
  | .closeOutbound _ => true
  | _ => false

end BridgeNodeAction

theorem NetworkBridge.addExport_error {b : NetworkBridge} {remoteTopic : Bytes} {block : ℕ}
    {e : MiddlewareError} (h : b.addExport remoteTopic block = .error e) :
    e = stoppedError ∨
      e = ⟨"bridge export topic is already registered: " ++ text remoteTopic⟩ := by
  unfold addExport at h
  split at h
  · exact .inl (Except.error.inj h).symm
  · split at h
    · exact .inr (Except.error.inj h).symm
    · cases h

theorem NetworkBridge.addImport_error {b : NetworkBridge} {remoteTopic : Bytes}
    {route : ImportRoute} {e : MiddlewareError} (h : b.addImport remoteTopic route = .error e) :
    e = stoppedError ∨
      e = ⟨"bridge import topic is already registered: " ++ text remoteTopic⟩ := by
  unfold addImport at h
  split at h
  · exact .inl (Except.error.inj h).symm
  · split at h
    · exact .inr (Except.error.inj h).symm
    · cases h

namespace BridgeNodeState
variable {Tid Ty : Type} {Val : Ty → Type} [DecidableEq Tid] [DecidableEq Ty]
  {traits : MessageTraits Val} {s₀ s s' : BridgeNodeState Tid Val} {t : Tid}
  {a : BridgeNodeAction Tid Val} {c : Configuration Ty}

structure Beside (s s' : BridgeNodeState Tid Val) : Prop where
  calls : s'.calls = s.calls
  returns : s'.returns = s.returns
  exports : s'.exports = s.exports
  routes : ∀ i, (s'.bridges i).bridge.routes = (s.bridges i).bridge.routes
  bus : s.bus.Undisturbed s'.bus

omit [DecidableEq Tid] [DecidableEq Ty] in
/-- One bridge changes and keeps its tables. -/
theorem routes_update {j : ℕ} {state : BridgeState Tid Val}
    (h : state.bridge.routes = (s.bridges j).bridge.routes) (i : ℕ) :
    (Function.update s.bridges j state i).bridge.routes = (s.bridges i).bridge.routes := by
  rw [Function.update_apply]
  split
  case isTrue hij => rw [hij, h]
  case isFalse => rfl

theorem beside_of_traffic (h : s.step traits a = some s') (htraffic : a.traffic = true) :
    s.Beside s' := by
  cases step_view h with
  | bus act bus hallows hbus =>
    exact ⟨rfl, rfl, rfl, fun _ => rfl, BusState.undisturbed_of_traffic hbus htraffic⟩
  | lambdaEnded t block e p threw bus hlambda hended hbus =>
    exact ⟨rfl, rfl, rfl, fun _ => rfl, BusState.undisturbed_of_traffic hbus rfl⟩
  | made | emitted | pushed | overflowed | taken | stopped | closed =>
    exact ⟨rfl, rfl, rfl, routes_update rfl, .refl s.bus⟩
  | refused _ t e ha =>
    rcases ha with ha | rfl
    · cases a <;> first | cases ha; done | cases htraffic
    · cases htraffic
  | busRefused _ t act bus u e ha => rcases ha with rfl | rfl <;> cases htraffic
  | _ => cases htraffic

/-- A call that came back with the error has left nothing behind but, if the tables of the bridge
were what refused it, the contract of a topic that had none; the subscription that it made for an
export is cancelled. -/
structure FailedCall (traits : MessageTraits Val) (c : Configuration Ty) (e : MiddlewareError)
    (s₀ s : BridgeNodeState Tid Val) : Prop where
  routes : ∀ i, (s.bridges i).bridge.routes = (s₀.bridges i).bridge.routes
  contracts : ∀ u, s.bus.bus.contractOf u = s₀.bus.bus.contractOf u ∨
    u = c.localTopic ∧ s₀.bus.bus.contractOf u = none ∧
      s.bus.bus.contractOf u = some (traits.contract c.localType) ∧ e ∈ c.tableErrors
  live : s.bus.history.created ≤ 2 ^ 64 → ∀ u, s.bus.liveOf u = s₀.bus.liveOf u
  cancelled : ∀ block, s₀.bus.history.created ≤ block → s.exports block ≠ none →
    s.bus.Inactive block

structure Listed (traits : MessageTraits Val) (c : Configuration Ty)
    (s₀ s : BridgeNodeState Tid Val) : Prop where
  records : s₀.bus.Records c.localTopic (traits.contract c.localType) s.bus
  others : ∀ u ≠ c.localTopic, s.bus.liveOf u = s₀.bus.liveOf u
  live : (s.bus.liveOf c.localTopic).filter (fun entry => entry.2 ≠ s₀.bus.history.created) =
    s₀.bus.liveOf c.localTopic
  created : s.bus.history.created = s₀.bus.history.created + 1
  exports : s.exports = Function.update s₀.exports s₀.bus.history.created
    (some ⟨c.bridge, c.networkTopic, c.localType⟩)

/-- Where a call is that began in `s₀`, with what it has done so far. -/
inductive Attempt (traits : MessageTraits Val) (t : Tid) (c : Configuration Ty)
    (s₀ s : BridgeNodeState Tid Val) : Prop
  | begun : (∃ options, s.calls t =
        .subscribing c.bridge c.localTopic c.networkTopic c.localType options) ∨
      s.calls t = .advertising c.bridge c.networkTopic c.localTopic c.localType →
      s₀.bus.Undisturbed s.bus → s.exports = s₀.exports → s.returns = s₀.returns →
      (∀ i, (s.bridges i).bridge.routes = (s₀.bridges i).bridge.routes) → Attempt traits t c s₀ s
  | registering : s.calls t = .registering c.bridge c.localTopic c.networkTopic
        s₀.bus.history.created (subscriptionId s₀.bus.history.created) →
      Listed traits c s₀ s → s.returns = s₀.returns →
      (∀ i, (s.bridges i).bridge.routes = (s₀.bridges i).bridge.routes) → Attempt traits t c s₀ s
  | cancelling (e : MiddlewareError) : e ∈ c.tableErrors → s.calls t =
        .cancelling c.localTopic s₀.bus.history.created (subscriptionId s₀.bus.history.created) e →
      Listed traits c s₀ s → s.returns = s₀.returns →
      (∀ i, (s.bridges i).bridge.routes = (s₀.bridges i).bridge.routes) → Attempt traits t c s₀ s
  | unsubscribing (e : MiddlewareError) : e ∈ c.tableErrors → s.calls t =
        .unsubscribing c.localTopic s₀.bus.history.created
          (subscriptionId s₀.bus.history.created) e →
      s.bus.Inactive s₀.bus.history.created → Listed traits c s₀ s → s.returns = s₀.returns →
      (∀ i, (s.bridges i).bridge.routes = (s₀.bridges i).bridge.routes) → Attempt traits t c s₀ s
  | routing : s.calls t = .routing c.bridge c.networkTopic c.localType →
      s₀.bus.Records c.localTopic (traits.contract c.localType) s.bus →
      (∀ u, s.bus.liveOf u = s₀.bus.liveOf u) →
      s.bus.history.created = s₀.bus.history.created → s.exports = s₀.exports →
      s.returns = s₀.returns →
      (∀ i, (s.bridges i).bridge.routes = (s₀.bridges i).bridge.routes) → Attempt traits t c s₀ s
  | failed (e : MiddlewareError) : s.calls t = .none → s.returns = s₀.returns ++ [(t, some e)] →
      FailedCall traits c e s₀ s → Attempt traits t c s₀ s
  | succeeded : s.calls t = .none → s.returns = s₀.returns ++ [(t, none)] →
      Attempt traits t c s₀ s

omit [DecidableEq Tid] [DecidableEq Ty] in
theorem Listed.beside (h : Listed traits c s₀ s) (hs : s.Beside s') : Listed traits c s₀ s' where
  records := ⟨fun u => (hs.bus.contracts u).trans (h.records.contracts u), h.records.agrees⟩
  others u hu := (hs.bus.live u).trans (h.others u hu)
  live := (congrArg _ (hs.bus.live _)).trans h.live
  created := hs.bus.created.trans h.created
  exports := hs.exports.trans h.exports

omit [DecidableEq Tid] [DecidableEq Ty] in
theorem FailedCall.beside {e : MiddlewareError} (h : FailedCall traits c e s₀ s)
    (hs : s.Beside s') (hinactive : ∀ block, s.bus.Inactive block → s'.bus.Inactive block) :
    FailedCall traits c e s₀ s' where
  routes i := (hs.routes i).trans (h.routes i)
  contracts u := by
    rw [hs.bus.contracts]
    exact h.contracts u
  live hfew u := (hs.bus.live u).trans (h.live (hs.bus.created ▸ hfew) u)
  cancelled block hblock he := hinactive block (h.cancelled block hblock (hs.exports ▸ he))

omit [DecidableEq Tid] [DecidableEq Ty] in
/-- Traffic beside the call. -/
theorem Attempt.beside (h : Attempt traits t c s₀ s) (hs : s.Beside s')
    (hinactive : ∀ block, s.bus.Inactive block → s'.bus.Inactive block) :
    Attempt traits t c s₀ s' := by
  have hroutes (hold : ∀ i, (s.bridges i).bridge.routes = (s₀.bridges i).bridge.routes) (i : ℕ) :
      (s'.bridges i).bridge.routes = (s₀.bridges i).bridge.routes := (hs.routes i).trans (hold i)
  have hcalls : s'.calls t = s.calls t := by rw [hs.calls]
  cases h with
  | begun hcall hbus hexports hreturns hold =>
    exact .begun (by rwa [hcalls]) (hbus.trans hs.bus) (hs.exports.trans hexports)
      (hs.returns.trans hreturns) (hroutes hold)
  | registering hcall hlisted hreturns hold =>
    exact .registering (hcalls.trans hcall) (hlisted.beside hs) (hs.returns.trans hreturns)
      (hroutes hold)
  | cancelling e he hcall hlisted hreturns hold =>
    exact .cancelling e he (hcalls.trans hcall) (hlisted.beside hs) (hs.returns.trans hreturns)
      (hroutes hold)
  | unsubscribing e he hcall hblock hlisted hreturns hold =>
    exact .unsubscribing e he (hcalls.trans hcall) (hinactive _ hblock) (hlisted.beside hs)
      (hs.returns.trans hreturns) (hroutes hold)
  | routing hcall hrecords hlive hcreated hexports hreturns hold =>
    exact .routing (hcalls.trans hcall)
      ⟨fun u => (hs.bus.contracts u).trans (hrecords.contracts u), hrecords.agrees⟩
      (fun u => (hs.bus.live u).trans (hlive u)) (hs.bus.created.trans hcreated)
      (hs.exports.trans hexports) (hs.returns.trans hreturns) (hroutes hold)
  | failed e hcall hreturns hfailed =>
    exact .failed e (hcalls.trans hcall) (hs.returns.trans hreturns) (hfailed.beside hs hinactive)
  | succeeded hcall hreturns => exact .succeeded (hcalls.trans hcall) (hs.returns.trans hreturns)

omit [DecidableEq Tid] [DecidableEq Ty] in
/-- A call that has not come past the bus. -/
theorem FailedCall.of_undisturbed {e : MiddlewareError} (hcreated : s₀.ExportsCreated)
    (hbus : s₀.bus.Undisturbed s.bus) (hexports : s.exports = s₀.exports)
    (hroutes : ∀ i, (s.bridges i).bridge.routes = (s₀.bridges i).bridge.routes) :
    FailedCall traits c e s₀ s where
  routes := hroutes
  contracts u := .inl (hbus.contracts u)
  live _ := hbus.live
  cancelled block hblock he := absurd (hcreated block hblock) (hexports ▸ he)

omit [DecidableEq Ty] in
theorem calls_return (e : Option MiddlewareError) : (s.return_ t e).calls t = .none :=
  Function.update_self ..

omit [DecidableEq Ty] in
theorem calls_setCall (call : ConfigureCall Ty) : (s.setCall t call).calls t = call :=
  Function.update_self ..

/-- The first section of a call. -/
theorem attempt_of_begin (hcreated : s₀.ExportsCreated) (h : s₀.step traits a = some s)
    (hc : a.configuration = some (t, c)) : Attempt traits t c s₀ s := by
  have hrefused (e : MiddlewareError) : Attempt traits t c s₀ (s₀.return_ t (some e)) :=
    .failed e (calls_return _) rfl
      (.of_undisturbed hcreated (.refl s₀.bus) rfl fun _ => rfl)
  cases a with
  | exportTopic u i localTopic remoteTopic τ options =>
    cases hc
    obtain ⟨-, h⟩ := Option.ite_none_right_eq_some.mp h
    cases hconfigurable : (s₀.bridges i).bridge.requireConfigurable with
    | error e =>
      rw [hconfigurable] at h
      cases h
      exact hrefused _
    | ok =>
      rw [hconfigurable] at h
      by_cases hempty : localTopic = [] ∨ (if remoteTopic = [] then localTopic else remoteTopic) = []
      · cases (if_pos hempty).symm.trans h
        exact hrefused _
      · cases (if_neg hempty).symm.trans h
        exact .begun (.inl ⟨options, calls_setCall _⟩) (.refl s₀.bus) rfl rfl fun _ => rfl
  | importTopic u i remoteTopic localTopic τ =>
    cases hc
    obtain ⟨-, h⟩ := Option.ite_none_right_eq_some.mp h
    cases hconfigurable : (s₀.bridges i).bridge.requireConfigurable with
    | error e =>
      rw [hconfigurable] at h
      cases h
      exact hrefused _
    | ok =>
      rw [hconfigurable] at h
      by_cases hempty : remoteTopic = [] ∨ (if localTopic = [] then remoteTopic else localTopic) = []
      · cases (if_pos hempty).symm.trans h
        exact hrefused _
      · cases (if_neg hempty).symm.trans h
        exact .begun (.inr (calls_setCall _)) (.refl s₀.bus) rfl rfl fun _ => rfl
  | _ => cases hc

/-- The section of `export_topic` that subscribes. -/
theorem Attempt.createSubscription {options : SubscriptionOptions}
    (hregistry : s.bus.RegistryInvariant) (htypes : s.bus.TypeInvariant)
    (hcreated : s₀.ExportsCreated) (hcall : s.calls t =
      .subscribing c.bridge c.localTopic c.networkTopic c.localType options)
    (hbus : s₀.bus.Undisturbed s.bus) (hexports : s.exports = s₀.exports)
    (hreturns : s.returns = s₀.returns)
    (hroutes : ∀ i, (s.bridges i).bridge.routes = (s₀.bridges i).bridge.routes)
    (h : s.step traits (.createSubscription t) = some s') : Attempt traits t c s₀ s' := by
  simp only [step, hcall] at h
  obtain ⟨bus, hstep, h⟩ := Option.bind_eq_some_iff.mp h
  split at h
  case h_1 u id hlast =>
    cases h
    obtain ⟨hrecords, hid, hcount, hothers, hlive⟩ :=
      BusState.subscribed_of_step hregistry htypes hstep hlast
    rw [hbus.created] at hid hcount hlive
    refine .registering ?_ ⟨⟨fun v => ?_, ?_⟩, fun v hv => ?_, ?_, hcount, ?_⟩ hreturns hroutes
    · rw [calls_setCall, hid, hbus.created]
    · rw [← hbus.contracts]
      exact hrecords.contracts v
    · rw [← hbus.contracts]
      exact hrecords.agrees
    · exact (hothers v hv).trans (hbus.live v)
    · exact hlive.trans (hbus.live _)
    · show Function.update s.exports s.bus.history.created _ = _
      rw [hexports, hbus.created]
  case h_2 u e hlast =>
    cases h
    exact .failed e (calls_return _) (congrArg (· ++ _) hreturns) (.of_undisturbed hcreated
      (hbus.trans (BusState.undisturbed_of_error hstep rfl hlast)) hexports hroutes)
  case h_3 => cases h

/-- The section of `import_topic` that advertises. -/
theorem Attempt.createPublisher (hcreated : s₀.ExportsCreated)
    (hcall : s.calls t = .advertising c.bridge c.networkTopic c.localTopic c.localType)
    (hbus : s₀.bus.Undisturbed s.bus) (hexports : s.exports = s₀.exports)
    (hreturns : s.returns = s₀.returns)
    (hroutes : ∀ i, (s.bridges i).bridge.routes = (s₀.bridges i).bridge.routes)
    (h : s.step traits (.createPublisher t) = some s') : Attempt traits t c s₀ s' := by
  simp only [step, hcall] at h
  obtain ⟨bus, hstep, h⟩ := Option.bind_eq_some_iff.mp h
  split at h
  case h_1 u hlast =>
    cases h
    obtain ⟨hrecords, hlive, hcount⟩ := BusState.advertised_of_step hstep hlast
    refine .routing (calls_setCall _) ⟨fun v => ?_, ?_⟩ (fun v => ?_) ?_ hexports hreturns hroutes
    · rw [← hbus.contracts]
      exact hrecords.contracts v
    · rw [← hbus.contracts]
      exact hrecords.agrees
    · exact (hlive v).trans (hbus.live v)
    · exact hcount.trans hbus.created
  case h_2 u e hlast =>
    cases h
    exact .failed e (calls_return _) (congrArg (· ++ _) hreturns) (.of_undisturbed hcreated
      (hbus.trans (BusState.undisturbed_of_error hstep rfl hlast)) hexports hroutes)
  case h_3 => cases h

omit [DecidableEq Tid] [DecidableEq Ty] in
/-- What the bus keeps of a call that the tables have refused. -/
theorem contracts_of_records {e : MiddlewareError} (he : e ∈ c.tableErrors)
    (h : s₀.bus.Records c.localTopic (traits.contract c.localType) s.bus) (u : Bytes) :
    s.bus.bus.contractOf u = s₀.bus.bus.contractOf u ∨
      u = c.localTopic ∧ s₀.bus.bus.contractOf u = none ∧
        s.bus.bus.contractOf u = some (traits.contract c.localType) ∧ e ∈ c.tableErrors := by
  rw [h.contracts]
  split
  case isTrue hu =>
    rcases h.agrees with hnone | hsame
    · exact .inr ⟨hu, hu ▸ hnone, rfl, he⟩
    · exact .inl (hu ▸ hsame.symm)
  case isFalse => exact .inl rfl

/-- The temporary subscription is gone. -/
theorem Listed.failed {e : MiddlewareError} {released : List ℕ} {bus : BusState Tid Val}
    (hregistry : s.bus.RegistryInvariant) (hids : s.bus.ListedIds)
    (hcreated : s₀.ExportsCreated) (h : Listed traits c s₀ s) (he : e ∈ c.tableErrors)
    (hinactive : s.bus.Inactive s₀.bus.history.created)
    (hroutes : ∀ i, (s.bridges i).bridge.routes = (s₀.bridges i).bridge.routes)
    (hstep : s.bus.step (.unsubscribe t c.localTopic (subscriptionId s₀.bus.history.created)) =
      some bus) :
    FailedCall traits c e s₀
      ({ s with bus := bus, released := released }.return_ t (some e)) := by
  have hbus := Option.ite_none_right_eq_some.mp hstep
  have hcontracts (u : Bytes) : bus.bus.contractOf u = s.bus.bus.contractOf u := by
    cases hbus.2
    exact TopicBus.contractOf_unsubscribe _
  refine ⟨hroutes, fun u => ?_, fun hfew u => ?_, fun block hblock hexport => ?_⟩
  · have hcases := contracts_of_records he h.records u
    rw [← hcontracts] at hcases
    exact hcases
  · have hfew' : s.bus.history.created ≤ 2 ^ 64 := by
      cases hbus.2
      exact hfew
    have hlt : s₀.bus.history.created < s.bus.history.created := by
      rw [h.created]
      exact Nat.lt_succ_self _
    obtain ⟨hothers, hlive⟩ :=
      BusState.unsubscribed_of_step hregistry hids hlt hfew' hstep
    by_cases hu : u = c.localTopic
    · subst hu
      exact hlive.trans h.live
    · exact (hothers u hu).trans (h.others u hu)
  · have hsame : block = s₀.bus.history.created := by
      by_contra hne
      have hexports : s.exports block = none := by
        rw [h.exports, Function.update_of_ne hne]
        exact hcreated block hblock
      exact hexport hexports
    subst hsame
    exact hinactive.step hregistry hstep

/-- A section of the call after its first. -/
theorem Attempt.continue (hregistry : s.bus.RegistryInvariant) (htypes : s.bus.TypeInvariant)
    (hids : s.bus.ListedIds) (hcreated : s₀.ExportsCreated) (h : Attempt traits t c s₀ s)
    (ha : a.continues t = true) (hs : s.step traits a = some s') : Attempt traits t c s₀ s' := by
  have ha : a = .createSubscription t ∨ a = .addExport t ∨ a = .cancelSubscription t ∨
      a = .unsubscribe t ∨ a = .createPublisher t ∨ a = .addImport t := by
    cases a <;> simp_all [BridgeNodeAction.continues]
  cases h with
  | begun hcall hbus hexports hreturns hroutes =>
    rcases hcall with ⟨options, hcall⟩ | hcall
    · rcases ha with rfl | rfl | rfl | rfl | rfl | rfl
      · exact .createSubscription hregistry htypes hcreated hcall hbus hexports hreturns hroutes hs
      all_goals simp [step, hcall] at hs
    · rcases ha with rfl | rfl | rfl | rfl | rfl | rfl
      case begun.inr.inr.inr.inr.inr.inl =>
        exact .createPublisher hcreated hcall hbus hexports hreturns hroutes hs
      all_goals simp [step, hcall] at hs
  | registering hcall hlisted hreturns hroutes =>
    rcases ha with rfl | rfl | rfl | rfl | rfl | rfl
    case inr.inl =>
      simp only [step, hcall] at hs
      split at hs
      case h_1 bridge hbridge =>
        cases hs
        exact .succeeded (calls_return _) (congrArg (· ++ _) hreturns)
      case h_2 e hrefused =>
        cases hs
        have he : e ∈ c.tableErrors := by
          rcases NetworkBridge.addExport_error hrefused with rfl | rfl
          · exact List.mem_cons_self
          · exact List.mem_cons_of_mem _ List.mem_cons_self
        exact .cancelling e he (calls_setCall _) { hlisted with } hreturns hroutes
    all_goals simp [step, hcall] at hs
  | cancelling e he hcall hlisted hreturns hroutes =>
    rcases ha with rfl | rfl | rfl | rfl | rfl | rfl
    case inr.inr.inl =>
      simp only [step, hcall] at hs
      obtain ⟨bus, hstep, rfl⟩ := Option.map_eq_some_iff.mp hs
      obtain ⟨hinactive, hquiet⟩ := BusState.inactive_of_cancel hstep
      have hbeside : s.Beside { s with bus := bus } := ⟨rfl, rfl, rfl, fun _ => rfl, hquiet⟩
      exact .unsubscribing e he (calls_setCall _) hinactive { hlisted.beside hbeside with }
        hreturns hroutes
    all_goals simp [step, hcall] at hs
  | unsubscribing e he hcall hblock hlisted hreturns hroutes =>
    rcases ha with rfl | rfl | rfl | rfl | rfl | rfl
    case inr.inr.inr.inl =>
      simp only [step, hcall] at hs
      obtain ⟨bus, hstep, rfl⟩ := Option.map_eq_some_iff.mp hs
      exact .failed e (calls_return _) (congrArg (· ++ _) hreturns)
        (hlisted.failed hregistry hids hcreated he hblock hroutes hstep)
    all_goals simp [step, hcall] at hs
  | routing hcall hrecords hlive hcount hexports hreturns hroutes =>
    rcases ha with rfl | rfl | rfl | rfl | rfl | rfl
    case inr.inr.inr.inr.inr =>
      simp only [step, hcall] at hs
      split at hs
      case h_1 bridge hbridge =>
        cases hs
        exact .succeeded (calls_return _) (congrArg (· ++ _) hreturns)
      case h_2 e hrefused =>
        cases hs
        have he : e ∈ c.tableErrors := by
          rcases NetworkBridge.addImport_error hrefused with rfl | rfl
          · exact List.mem_cons_self
          · exact List.mem_cons_of_mem _ (List.mem_cons_of_mem _ List.mem_cons_self)
        exact .failed e (calls_return _) (congrArg (· ++ _) hreturns)
          ⟨hroutes, contracts_of_records he hrecords, fun _ => hlive,
            fun block hblock hexport => absurd (hcreated block hblock) (hexports ▸ hexport)⟩
    all_goals simp [step, hcall] at hs
  | failed e hcall =>
    rcases ha with rfl | rfl | rfl | rfl | rfl | rfl <;> simp [step, hcall] at hs
  | succeeded hcall =>
    rcases ha with rfl | rfl | rfl | rfl | rfl | rfl <;> simp [step, hcall] at hs

variable {options : ℕ → NetworkBridgeOptions} {defaultPublisherId : ℕ → BitVec 64}

/-- The call among other steps. -/
theorem attempt_of_run {actions : List (BridgeNodeAction Tid Val)}
    (h : (bridgeNodeSystem traits options defaultPublisherId).Reachable s)
    (hcreated : s₀.ExportsCreated) (hattempt : Attempt traits t c s₀ s)
    (hactions : ∀ a ∈ actions, a.continues t = true ∨ a.traffic = true)
    (hrun : (bridgeNodeSystem traits options defaultPublisherId).run s actions = some s') :
    Attempt traits t c s₀ s' := by
  induction actions generalizing s with
  | nil =>
    cases hrun
    exact hattempt
  | cons a actions ih =>
    obtain ⟨s₁, hs, hrun⟩ := Option.bind_eq_some_iff.mp hrun
    have hbus := bus_reachable h
    have hregistry := BusState.registryInvariant_of_reachable hbus
    refine ih (h.step hs) ?_ (fun b hb => hactions b (List.mem_cons_of_mem a hb)) hrun
    rcases hactions a List.mem_cons_self with hcontinues | htraffic
    · exact hattempt.continue hregistry (BusState.typeInvariant_of_reachable hbus)
        (BusState.listedIds_of_reachable hbus) hcreated hcontinues hs
    · refine hattempt.beside (beside_of_traffic hs htraffic) fun block hblock => ?_
      rcases bus_of_step hs with hsame | ⟨act, hact⟩
      · rwa [hsame]
      · exact hblock.step hregistry hact

/-- Nothing but what had begun before comes out of a cancelled export. -/
theorem emitted_of_inactive {block i : ℕ} {e : ExportLambda Ty}
    (h : (bridgeNodeSystem traits options defaultPublisherId).Reachable s)
    (hinactive : s.bus.Inactive block) (he : s.exports block = some e)
    (hleads : (bridgeNodeSystem traits options defaultPublisherId).Leads s s') :
    (messagesOf (s'.bridges i).emitted block).Sublist (s.bus.startedOf block) := by
  let P (s' : BridgeNodeState Tid Val) : Prop :=
    (bridgeNodeSystem traits options defaultPublisherId).Reachable s' ∧ s'.bus.Inactive block ∧
      s'.exports block = some e ∧ s'.bus.startedOf block = s.bus.startedOf block
  have hkept : P s' := by
    refine hleads.invariant (P := P) (fun s₁ a s₂ hs₁ hs => ?_) ⟨h, hinactive, he, rfl⟩
    obtain ⟨hreachable, hcancelled, hexport, hstarted⟩ := hs₁
    have hinv := exportInvariant_of_reachable hreachable
    refine ⟨hreachable.step hs, ?_, exports_of_view (hinv.step hs).2 hexport, ?_⟩
    · rcases bus_of_step hs with hsame | ⟨act, hact⟩
      · rwa [hsame]
      · exact hcancelled.step hinv.registry hact
    · rcases bus_of_step hs with hsame | ⟨act, hact⟩
      · rw [hsame, hstarted]
      · rw [hcancelled.startedOf_eq hinv.registry hact, hstarted]
  obtain ⟨hreachable, -, hexport, hstarted⟩ := hkept
  rw [← hstarted]
  exact (exportInvariant_of_reachable hreachable).logs.emitted.begun i block e hexport

/-- A call that throws leaves the tables of the bridges and the subscriptions as they were, and of
the contracts at most the one that it recorded before the tables refused it; the frames of its
subscription are of messages whose callbacks had begun when it came back. -/
theorem failed_configuration {actions : List (BridgeNodeAction Tid Val)} {e : MiddlewareError}
    (h : (bridgeNodeSystem traits options defaultPublisherId).Reachable s₀)
    (hc : a.configuration = some (t, c)) (hbegin : s₀.step traits a = some s)
    (hactions : ∀ a ∈ actions, a.continues t = true ∨ a.traffic = true)
    (hrun : (bridgeNodeSystem traits options defaultPublisherId).run s actions = some s')
    (hreturned : s'.returns = s₀.returns ++ [(t, some e)]) :
    FailedCall traits c e s₀ s' ∧
      ∀ s'', (bridgeNodeSystem traits options defaultPublisherId).Leads s' s'' →
        ∀ block, s₀.bus.history.created ≤ block → s'.exports block ≠ none →
          ∀ i, (messagesOf (s''.bridges i).emitted block).Sublist (s'.bus.startedOf block) := by
  have hinv := exportInvariant_of_reachable h
  have hcreated := hinv.registered.created hinv.registry
  have h₁ : (bridgeNodeSystem traits options defaultPublisherId).Reachable s := h.step hbegin
  have hattempt := attempt_of_run h₁ hcreated (attempt_of_begin hcreated hbegin hc) hactions hrun
  have hlonger : s'.returns ≠ s₀.returns := by
    rw [hreturned]
    exact fun hsame => absurd (List.self_eq_append_right.mp hsame.symm) (List.cons_ne_nil _ _)
  have hfailed : FailedCall traits c e s₀ s' := by
    cases hattempt with
    | failed e' hcall hreturns hfailed =>
      cases List.append_cancel_left (hreturns.symm.trans hreturned)
      exact hfailed
    | succeeded hcall hreturns => cases List.append_cancel_left (hreturns.symm.trans hreturned)
    | begun hcall hbus hexports hreturns => exact absurd hreturns hlonger
    | registering hcall hlisted hreturns => exact absurd hreturns hlonger
    | cancelling e he hcall hlisted hreturns => exact absurd hreturns hlonger
    | unsubscribing e he hcall hblock hlisted hreturns => exact absurd hreturns hlonger
    | routing hcall hrecords hlive hcount hexports hreturns => exact absurd hreturns hlonger
  refine ⟨hfailed, fun s'' hleads block hblock hexport i => ?_⟩
  obtain ⟨lambda, hlambda⟩ := Option.ne_none_iff_exists'.mp hexport
  exact emitted_of_inactive (h₁.run hrun) (hfailed.cancelled block hblock hexport) hlambda hleads

section Refused

def numberTraits : MessageTraits (fun _ : ℕ => ℕ) :=
  ⟨fun τ => BitVec.ofNat 32 τ, fun _ => 9, fun _ n => .ok [BitVec.ofNat 8 n]⟩

/-- The steps after the first of a call that exports topic 2 under a name that is taken; its
subscription gets a message before the tables refuse it. -/
def refusedExport : List (BridgeNodeAction ℕ fun _ : ℕ => ℕ) :=
  [.createSubscription 0, .bus (.publish 1 [2] 1 9 ⟨1, 5⟩ false [1]), .bus (.lockDispatch 1),
    .bus (.enqueue 1), .bus (.post 1 .accepted), .bus (.unlockDispatch 1), .bus (.startDrain 2 1),
    .bus (.pop 2), .makeFrame 2 100, .emitFrame 2, .push 2, .addExport 0, .cancelSubscription 0,
    .unsubscribe 0]

theorem exists_refused_export :
    ∃ (s₀ s s' : BridgeNodeState ℕ fun _ : ℕ => ℕ) (e : MiddlewareError),
      (bridgeNodeSystem numberTraits (fun _ => {}) fun _ => 7).Reachable s₀ ∧
      s₀.step numberTraits (.exportTopic 0 0 [2] [1] 1 {}) = some s ∧
      (bridgeNodeSystem numberTraits (fun _ => {}) fun _ => 7).run s refusedExport = some s' ∧
      s'.returns = s₀.returns ++ [(0, some e)] ∧ s₀.bus.history.created = 1 ∧
      (s'.bridges 0).queued.map ExportedFrame.block = [1] ∧
      s₀.bus.bus.contractOf [2] = none ∧ (s'.bus.bus.contractOf [2]).isSome = true := by
  obtain ⟨s₀, s', hs₀, hrun, hp⟩ :=
    TransitionSystem.exists_run_of_run
    (bridgeNodeSystem numberTraits (fun _ => {}) fun _ => 7 : TransitionSystem
      (BridgeNodeState ℕ _) _)
    { bridges := fun _ => { bridge := { publisherId := 7, outbound := { capacity := 1024 } } } }
    [.exportTopic 0 0 [1] [] 0 {}, .createSubscription 0, .addExport 0]
    (.exportTopic 0 0 [2] [1] 1 {} :: refusedExport)
    (fun s₀ s' => s₀.bus.history.created = 1 &&
      (s'.bridges 0).queued.map ExportedFrame.block = [1] &&
      s₀.bus.bus.contractOf [2] = none && (s'.bus.bus.contractOf [2]).isSome &&
      s₀.returns = [(0, none)] && s'.returns.dropLast = [(0, none)] &&
      s'.returns.getLast?.any fun r => r.1 = 0 && r.2.isSome)
    ⟨_, fun _ => rfl, rfl⟩ (by decide +kernel)
  obtain ⟨s, hbegin, hrun⟩ := Option.bind_eq_some_iff.mp hrun
  simp only [Bool.and_eq_true, decide_eq_true_iff, Option.any_eq_true] at hp
  obtain ⟨⟨⟨⟨⟨⟨hcreated, hqueued⟩, hnone⟩, hsome⟩, hreturns⟩, hbefore⟩, ⟨u, r⟩, hlast, rfl, hr⟩ := hp
  obtain ⟨e, rfl⟩ := Option.isSome_iff_exists.mp hr
  refine ⟨s₀, s, s', e, hs₀, hbegin, hrun, ?_, hcreated, hqueued, hnone, hsome⟩
  rw [hreturns, ← hbefore]
  exact (List.dropLast_append_getLast? _ hlast).symm

theorem failed_configuration_export :
    ∃ (s₀ s' : BridgeNodeState ℕ fun _ : ℕ => ℕ) (e : MiddlewareError),
      s'.returns = s₀.returns ++ [(0, some e)] ∧
      (s'.bridges 0).queued.map ExportedFrame.block = [1] ∧
      FailedCall numberTraits ⟨0, [2], [1], 1⟩ e s₀ s' := by
  obtain ⟨s₀, s, s', e, hs₀, hbegin, hrun, hreturns, -, hqueued, -⟩ := exists_refused_export
  exact ⟨s₀, s', e, hreturns, hqueued,
    (failed_configuration hs₀ rfl hbegin (by decide) hrun hreturns).1⟩

/-- Neither the recorded types nor the frames are as if the call had not been made. -/
theorem failed_configuration_effects :
    ¬ ∀ (s₀ s s' : BridgeNodeState ℕ fun _ : ℕ => ℕ)
        (a : BridgeNodeAction ℕ fun _ : ℕ => ℕ)
        (actions : List (BridgeNodeAction ℕ fun _ : ℕ => ℕ)) (t : ℕ)
        (c : Configuration ℕ) (e : MiddlewareError),
      (bridgeNodeSystem numberTraits (fun _ => {}) fun _ => 7).Reachable s₀ →
      a.configuration = some (t, c) → s₀.step numberTraits a = some s →
      (∀ a ∈ actions, a.continues t = true ∨ a.traffic = true) →
      (bridgeNodeSystem numberTraits (fun _ => {}) fun _ => 7).run s actions = some s' →
      s'.returns = s₀.returns ++ [(t, some e)] →
      (∀ u, s'.bus.bus.contractOf u = s₀.bus.bus.contractOf u) ∨
        ∀ x ∈ (s'.bridges c.bridge).queued, x.block < s₀.bus.history.created := by
  intro hall
  obtain ⟨s₀, s, s', e, hs₀, hbegin, hrun, hreturns, hcreated, hqueued, hnone, hsome⟩ :=
    exists_refused_export
  rcases hall s₀ s s' _ _ 0 ⟨0, [2], [1], 1⟩ e hs₀ rfl hbegin (by decide) hrun hreturns with
    hcontracts | hframes
  · rw [hcontracts, hnone] at hsome
    cases hsome
  · obtain ⟨x, hx, hblock⟩ : ∃ x ∈ (s'.bridges 0).queued, x.block = 1 := by
      rw [← List.mem_map, hqueued]
      exact List.mem_singleton_self 1
    have hlt := hframes x hx
    omega

end Refused

end BridgeNodeState
end RobotMiddleware
