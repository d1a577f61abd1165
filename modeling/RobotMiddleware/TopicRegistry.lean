import RobotMiddleware.TopicBusSteps
import RobotMiddleware.MailboxOrder

/-! What the registry knows of a topic, and the invariant that ties it to the control
blocks: every block under a topic was registered for that topic with its contract. -/
namespace RobotMiddleware

namespace TopicBus
variable {Ty : Type}

def contractOf (b : TopicBus Ty) (topic : Bytes) : Option (TypeContract Ty) :=
  (b.topics.lookup topic).map TopicRecord.contract

def subscriptionsOf (b : TopicBus Ty) (topic : Bytes) : List (BitVec 64 × ℕ) :=
  ((b.topics.lookup topic).map TopicRecord.subscriptions).getD []

variable {b b' : TopicBus Ty} {topic u : Bytes} {contract : TypeContract Ty}
  {record : TopicRecord Ty}

theorem contractOf_of_lookup (h : b.topics.lookup topic = some record) :
    b.contractOf topic = some record.contract := by
  rw [contractOf, h, Option.map_some]

theorem subscriptionsOf_of_lookup (h : b.topics.lookup topic = some record) :
    b.subscriptionsOf topic = record.subscriptions := by
  rw [subscriptionsOf, h, Option.map_some, Option.getD_some]

/-- A topic with subscriptions has a contract. -/
theorem contractOf_of_mem {entry : BitVec 64 × ℕ} (h : entry ∈ b.subscriptionsOf topic) :
    ∃ contract, b.contractOf topic = some contract := by
  unfold subscriptionsOf at h
  cases hlookup : b.topics.lookup topic with
  | none =>
    rw [hlookup] at h
    cases h
  | some record => exact ⟨record.contract, contractOf_of_lookup hlookup⟩

theorem contractOf_emplace : (b.emplace topic record).contractOf u =
    if u = topic then some record.contract else b.contractOf u := by
  split
  case isTrue h => rw [h, contractOf, emplace, AList.lookup_insert, Option.map_some]
  case isFalse h => rw [contractOf, emplace, AList.lookup_insert_ne h, contractOf]

theorem subscriptionsOf_emplace : (b.emplace topic record).subscriptionsOf u =
    if u = topic then record.subscriptions else b.subscriptionsOf u := by
  split
  case isTrue h =>
    rw [h, subscriptionsOf, emplace, AList.lookup_insert, Option.map_some, Option.getD_some]
  case isFalse h => rw [subscriptionsOf, emplace, AList.lookup_insert_ne h, subscriptionsOf]

/-- Writing back a record with the contract it had. -/
theorem contractOf_emplace_of_lookup (h : b.topics.lookup topic = some record)
    (subscriptions : List (BitVec 64 × ℕ)) (u : Bytes) :
    (b.emplace topic { record with subscriptions := subscriptions }).contractOf u =
      b.contractOf u := by
  rw [contractOf_emplace]
  split
  case isTrue hu => rw [hu, contractOf_of_lookup h]
  case isFalse => rfl

/-- Writing back a record with some of the subscriptions it had. -/
theorem subscriptionsOf_emplace_sublist (h : b.topics.lookup topic = some record)
    {subscriptions : List (BitVec 64 × ℕ)} (hsub : subscriptions.Sublist record.subscriptions)
    (u : Bytes) :
    ((b.emplace topic { record with subscriptions := subscriptions }).subscriptionsOf u).Sublist
      (b.subscriptionsOf u) := by
  rw [subscriptionsOf_emplace]
  split
  case isTrue hu => rwa [hu, subscriptionsOf_of_lookup h]
  case isFalse => exact .refl _

@[simp] theorem contractOf_addSubscription (id : BitVec 64) (block : ℕ) :
    (b.addSubscription topic id block).contractOf u = b.contractOf u := by
  unfold addSubscription
  split
  case h_1 record hrecord =>
    split
    case isTrue => rfl
    case isFalse => exact contractOf_emplace_of_lookup hrecord _ u
  case h_2 => rfl

/-- The map of the topic is as before, or has the new entry too. -/
theorem subscriptionsOf_addSubscription (b : TopicBus Ty) (topic u : Bytes) (id : BitVec 64)
    (block : ℕ) :
    (b.addSubscription topic id block).subscriptionsOf u = b.subscriptionsOf u ∨
      u = topic ∧ (b.addSubscription topic id block).subscriptionsOf u =
        b.subscriptionsOf u ++ [(id, block)] := by
  unfold addSubscription
  split
  case h_1 record hrecord =>
    split
    case isTrue => exact .inl rfl
    case isFalse =>
      rw [subscriptionsOf_emplace]
      split
      case isTrue hu => exact .inr ⟨hu, by rw [hu, subscriptionsOf_of_lookup hrecord]⟩
      case isFalse => exact .inl rfl
  case h_2 => exact .inl rfl

@[simp] theorem contractOf_unsubscribe (id : BitVec 64) :
    (b.unsubscribe topic id).contractOf u = b.contractOf u := by
  unfold unsubscribe
  split
  case h_1 record hrecord => exact contractOf_emplace_of_lookup hrecord _ u
  case h_2 => rfl

theorem subscriptionsOf_unsubscribe (id : BitVec 64) (u : Bytes) :
    ((b.unsubscribe topic id).subscriptionsOf u).Sublist (b.subscriptionsOf u) := by
  unfold unsubscribe
  split
  case h_1 record hrecord =>
    exact subscriptionsOf_emplace_sublist hrecord List.filter_sublist u
  case h_2 => exact .refl _

theorem lookup_clear (topics : AList fun _ : Bytes => TopicRecord Ty) (u : Bytes) :
    (clear topics).lookup u =
      (topics.lookup u).map fun record => { record with subscriptions := [] } := by
  let emptied (_ : Bytes) (record : TopicRecord Ty) : TopicRecord Ty :=
    { record with subscriptions := [] }
  have hmap : (clear topics).entries = topics.entries.map (Sigma.map id emptied) := rfl
  rw [AList.lookup, hmap, List.dlookup_map₂]
  rfl

@[simp] theorem contractOf_stop (expired : ℕ → Bool) :
    (b.stop expired).1.contractOf u = b.contractOf u := by
  unfold stop
  split
  case isTrue => rfl
  case isFalse =>
    simp only [contractOf, lookup_clear, Option.map_map]
    rfl

theorem subscriptionsOf_stop (expired : ℕ → Bool) (u : Bytes) :
    ((b.stop expired).1.subscriptionsOf u).Sublist (b.subscriptionsOf u) := by
  unfold stop
  split
  case isTrue => exact .refl _
  case isFalse =>
    have hnil : subscriptionsOf { b with accepting := false, topics := clear b.topics } u = [] := by
      simp only [subscriptionsOf, lookup_clear, Option.map_map]
      cases b.topics.lookup u <;> rfl
    rw [hnil]
    exact List.nil_sublist _

@[simp] theorem stop_nextSubscriptionId (expired : ℕ → Bool) :
    (b.stop expired).1.nextSubscriptionId = b.nextSubscriptionId := by
  unfold stop
  split <;> rfl

@[simp] theorem unsubscribe_nextSubscriptionId (id : BitVec 64) :
    (b.unsubscribe topic id).nextSubscriptionId = b.nextSubscriptionId := by
  unfold unsubscribe
  split <;> rfl

@[simp] theorem addSubscription_nextSubscriptionId (id : BitVec 64) (block : ℕ) :
    (b.addSubscription topic id block).nextSubscriptionId = b.nextSubscriptionId := by
  unfold addSubscription
  split
  case h_1 => split <;> rfl
  case h_2 => rfl

@[simp] theorem addSubscription_accepting (id : BitVec 64) (block : ℕ) :
    (b.addSubscription topic id block).accepting = b.accepting := by
  unfold addSubscription
  split
  case h_1 => split <;> rfl
  case h_2 => rfl

@[simp] theorem unsubscribe_accepting (id : BitVec 64) :
    (b.unsubscribe topic id).accepting = b.accepting := by
  unfold unsubscribe
  split <;> rfl

@[simp] theorem stop_accepting (expired : ℕ → Bool) : (b.stop expired).1.accepting = false := by
  unfold stop
  split
  case isTrue h => simpa using h
  case isFalse => rfl

namespace Registers

theorem contractOf (h : b.Registers topic contract b') (u : Bytes) :
    b'.contractOf u = if u = topic then some contract else b.contractOf u := by
  cases h with
  | first hnone => exact contractOf_emplace
  | known record hrecord hcontract =>
    split
    case isTrue hu => rw [hu, contractOf_of_lookup hrecord, hcontract]
    case isFalse => rfl

/-- A topic that was known keeps its contract. -/
theorem agrees (h : b.Registers topic contract b') :
    b.contractOf topic = none ∨ b.contractOf topic = some contract := by
  cases h with
  | first hnone => exact .inl (by rw [TopicBus.contractOf, hnone, Option.map_none])
  | known record hrecord hcontract =>
    exact .inr (by rw [contractOf_of_lookup hrecord, hcontract])

theorem contractOf_mono (h : b.Registers topic contract b') (u : Bytes) (c : TypeContract Ty)
    (hc : b.contractOf u = some c) : b'.contractOf u = some c := by
  rw [h.contractOf]
  split
  case isTrue hu =>
    rcases h.agrees with hnone | hsame
    · rw [hu, hnone] at hc
      cases hc
    · rw [← hc, hu, hsame]
  case isFalse => exact hc

theorem subscriptionsOf (h : b.Registers topic contract b') (u : Bytes) :
    b'.subscriptionsOf u = b.subscriptionsOf u := by
  cases h with
  | first hnone =>
    rw [subscriptionsOf_emplace]
    split
    case isTrue hu => rw [hu, TopicBus.subscriptionsOf, hnone, Option.map_none, Option.getD_none]
    case isFalse => rfl
  | known record hrecord hcontract => rfl

theorem nextSubscriptionId (h : b.Registers topic contract b') :
    b'.nextSubscriptionId = b.nextSubscriptionId := by
  cases h <;> rfl

theorem accepting (h : b.Registers topic contract b') : b'.accepting = b.accepting := by
  cases h <;> rfl

end Registers

end TopicBus

namespace BusState
variable {Tid Ty : Type} {Val : Ty → Type} [DecidableEq Tid]

/-- What a step that neither registers nor publishes leaves as it was: a registry that only
forgets subscriptions, and blocks that take their own steps and accept nothing. -/
structure Kept (s s' : BusState Tid Val) : Prop where
  contracts : ∀ topic, s'.bus.contractOf topic = s.bus.contractOf topic
  listed : ∀ topic, (s'.bus.subscriptionsOf topic).Sublist (s.bus.subscriptionsOf topic)
  nextId : s'.bus.nextSubscriptionId = s.bus.nextSubscriptionId
  boxes : ∀ block, s'.boxes block = s.boxes block ∨ ∃ sub state act, s.boxes block = some sub ∧
    sub.state.step act = some state ∧ s'.boxes block = some { sub with state := state } ∧
    state.history.accepted = sub.state.history.accepted
  created : s'.history.created = s.history.created
  registrations : s'.history.registrations = s.history.registrations
  ids : s'.history.ids = s.history.ids
  dispatched : s'.history.dispatched = s.history.dispatched
  publishes : s.history.publishes ≤ s'.history.publishes

inductive FlowView (s : BusState Tid Val) : BusState Tid Val → Prop
  | advertised (topic : Bytes) (contract : TypeContract Ty) (bus : TopicBus Ty)
      (returns : List (Tid × BusReturn)) : s.bus.Registers topic contract bus →
      FlowView s { s with
        bus := bus
        history := { s.history with
          registrations := s.history.registrations ++ [(topic, contract)], returns := returns } }
  | subscribed (topic : Bytes) (contract : TypeContract Ty) (options : SubscriptionOptions)
      (bus : TopicBus Ty) (block : SubscriptionControlBlock Tid (Publication Tid Val))
      (returns : List (Tid × BusReturn)) : s.bus.Registers topic contract bus →
      SubscriptionControlBlock.create options true = .ok block →
      FlowView s { s with
        bus := { bus with nextSubscriptionId := bus.nextSubscriptionId + 1 }.addSubscription topic
          bus.nextSubscriptionId s.history.created
        boxes := Function.update s.boxes s.history.created (some {
          topic := topic, contract := contract, options := options
          id := bus.nextSubscriptionId, state := { block := block } })
        history := { s.history with
          created := s.history.created + 1
          registrations := s.history.registrations ++ [(topic, contract)]
          ids := s.history.ids ++ [bus.nextSubscriptionId], returns := returns } }
  | snapshot (t : Tid) (p : Publication Tid Val) (record : TopicRecord Ty) (order : List ℕ)
      (result : PublishResult) : (s.threads t).call = .none →
      s.bus.topics.lookup p.topic = some record → record.contract = p.contract →
      p.call = s.history.publishes → p.publisher = t →
      order.Perm ((record.subscriptions.filter fun entry => !s.expired entry.2).map Prod.snd) →
      FlowView s ({ s with
        bus := s.bus.emplace p.topic { record with
          subscriptions := record.subscriptions.filter fun entry => !s.expired entry.2 }
        history := { s.history with publishes := s.history.publishes + 1 } }.setCall t
        (.locking ⟨p, order, result⟩))
  | locked (t : Tid) (c : PublishCall Tid Val) : (s.threads t).call = .locking c →
      s.dispatch c.publication.topic = none →
      FlowView s ({ s with
        dispatch := Function.update s.dispatch c.publication.topic (some t)
        history := { s.history with
          dispatched := s.history.dispatched ++ [c.publication] } }.setCall t (.dispatching c))
  | enqueued (t : Tid) (p : Publication Tid Val) (block : ℕ) (rest : List ℕ)
      (sub : BusSubscription Tid Val) (state : MailboxState Tid (Publication Tid Val))
      (call : BusCall Tid Val) (outcomes : List (ℕ × ℕ × DeliveryOutcome)) :
      (s.threads t).call.fanout = some ⟨p, block :: rest, true⟩ →
      call.fanout = some ⟨p, rest, true⟩ → s.boxes block = some sub →
      sub.state.step (.enqueue t p p.isRemote) = some state →
      FlowView s ({ s.setBox block sub state with
        history := { s.history with outcomes := outcomes } }.setCall t call)
  | released (t : Tid) (p : Publication Tid Val) (rest : List ℕ) (s' : BusState Tid Val) :
      (s.threads t).call.fanout = some ⟨p, rest, true⟩ → Kept s s' →
      s'.dispatch = Function.update s.dispatch p.topic none →
      (∀ u, (s'.threads u).call.fanout = if u = t then none else (s.threads u).call.fanout) →
      FlowView s s'
  | quiet (s' : BusState Tid Val) : Kept s s' → s'.dispatch = s.dispatch →
      (∀ u, (s'.threads u).call.fanout = (s.threads u).call.fanout) → FlowView s s'

namespace Kept
variable {s s' : BusState Tid Val}

/-- The registry and the blocks are as before. -/
theorem of_same (hbus : s'.bus = s.bus) (hboxes : s'.boxes = s.boxes)
    (hcreated : s'.history.created = s.history.created)
    (hregistrations : s'.history.registrations = s.history.registrations)
    (hids : s'.history.ids = s.history.ids)
    (hdispatched : s'.history.dispatched = s.history.dispatched)
    (hpublishes : s.history.publishes ≤ s'.history.publishes) : Kept s s' :=
  ⟨fun _ => by rw [hbus], fun _ => by rw [hbus], by rw [hbus], fun _ => .inl (by rw [hboxes]),
    hcreated, hregistrations, hids, hdispatched, hpublishes⟩

/-- One block has taken a step that is no enqueue. -/
theorem of_setBox {block : ℕ} {sub : BusSubscription Tid Val}
    {state : MailboxState Tid (Publication Tid Val)}
    {act : MailboxAction Tid (Publication Tid Val)} (hsub : s.boxes block = some sub)
    (hstate : sub.state.step act = some state)
    (hact : ∀ t message isRemote, act ≠ .enqueue t message isRemote) :
    Kept s (s.setBox block sub state) := by
  refine ⟨fun _ => rfl, fun _ => .refl _, rfl, fun other => ?_, rfl, rfl, rfl, rfl, le_rfl⟩
  by_cases hother : other = block
  · right
    refine ⟨sub, state, act, hother ▸ hsub, hstate, ?_, MailboxState.accepted_of_step hstate hact⟩
    simp only [setBox, hother, Function.update_self]
  · left
    simp only [setBox, ne_eq, hother, not_false_eq_true, Function.update_of_ne]

/-- Threads, dispatch mutexes and the record of results are not part of it. -/
theorem congr (h : Kept s s') {s'' : BusState Tid Val} (hbus : s''.bus = s'.bus)
    (hboxes : s''.boxes = s'.boxes) (hcreated : s''.history.created = s'.history.created)
    (hregistrations : s''.history.registrations = s'.history.registrations)
    (hids : s''.history.ids = s'.history.ids)
    (hdispatched : s''.history.dispatched = s'.history.dispatched)
    (hpublishes : s''.history.publishes = s'.history.publishes) : Kept s s'' :=
  ⟨fun topic => by rw [hbus, h.contracts], fun topic => by rw [hbus]; exact h.listed topic,
    by rw [hbus, h.nextId], fun block => by rw [hboxes]; exact h.boxes block,
    hcreated.trans h.created, hregistrations.trans h.registrations, hids.trans h.ids,
    hdispatched.trans h.dispatched, hpublishes ▸ h.publishes⟩

end Kept

/-- A control block keeps what it was registered with, and takes steps of its own. -/
theorem FlowView.box {s s' : BusState Tid Val} (h : FlowView s s')
    (hfresh : s.boxes s.history.created = none) {block : ℕ} {sub : BusSubscription Tid Val}
    (hsub : s.boxes block = some sub) :
    ∃ state, s'.boxes block = some { sub with state := state } ∧
      (state = sub.state ∨ ∃ act, sub.state.step act = some state) := by
  have hsame : ∃ state, s.boxes block = some { sub with state := state } ∧
      (state = sub.state ∨ ∃ act, sub.state.step act = some state) :=
    ⟨sub.state, hsub, .inl rfl⟩
  have hkept (hkept : Kept s s') : ∃ state, s'.boxes block = some { sub with state := state } ∧
      (state = sub.state ∨ ∃ act, sub.state.step act = some state) := by
    rcases hkept.boxes block with hbox | ⟨sub', state, act, hsub', hstate, hbox, -⟩
    · exact ⟨sub.state, hbox.trans hsub, .inl rfl⟩
    · cases hsub.symm.trans hsub'
      exact ⟨state, hbox, .inr ⟨act, hstate⟩⟩
  cases h with
  | advertised => exact hsame
  | subscribed topic contract options bus block' returns hregisters hcreate =>
    have hother : block ≠ s.history.created := by
      rintro rfl
      rw [hfresh] at hsub
      cases hsub
    simpa only [ne_eq, hother, not_false_eq_true, Function.update_of_ne] using hsame
  | snapshot => exact hsame
  | locked => exact hsame
  | enqueued t p block' rest sub' state call outcomes hcall hnext hsub' hstate =>
    by_cases hblock : block = block'
    · subst hblock
      cases hsub.symm.trans hsub'
      exact ⟨state, by simp only [setCall, setBox, Function.update_self], .inr ⟨_, hstate⟩⟩
    · simpa only [setCall, setBox, ne_eq, hblock, not_false_eq_true, Function.update_of_ne]
        using hsame
  | released t p rest s' hcall hk => exact hkept hk
  | quiet s' hk => exact hkept hk

/-- A new control block has the next number and is an initial mailbox. -/
theorem FlowView.newBox {s s' : BusState Tid Val} (h : FlowView s s') {block : ℕ}
    {sub : BusSubscription Tid Val} (hnone : s.boxes block = none)
    (hsub : s'.boxes block = some sub) :
    block = s.history.created ∧ s'.history.created = s.history.created + 1 ∧
      (mailboxSystem Tid (Publication Tid Val) sub.options).init sub.state := by
  have hsame : s.boxes block ≠ some sub := by
    rw [hnone]
    simp
  have hkept (hkept : Kept s s') : False := by
    rcases hkept.boxes block with hbox | ⟨sub', state, act, hsub', -⟩
    · exact hsame (hbox.symm.trans hsub)
    · rw [hnone] at hsub'
      cases hsub'
  cases h with
  | advertised => exact absurd hsub hsame
  | subscribed topic contract options bus block' returns hregisters hcreate =>
    by_cases hblock : block = s.history.created
    · subst hblock
      simp only [Function.update_self, Option.some.injEq] at hsub
      subst hsub
      exact ⟨rfl, rfl, block', hcreate, rfl⟩
    · simp only [ne_eq, hblock, not_false_eq_true, Function.update_of_ne] at hsub
      exact absurd hsub hsame
  | snapshot => exact absurd hsub hsame
  | locked => exact absurd hsub hsame
  | enqueued t p block' rest sub' state call outcomes hcall hnext hsub' hstate =>
    have hblock : block ≠ block' := by
      rintro rfl
      rw [hnone] at hsub'
      cases hsub'
    simp only [setCall, setBox, ne_eq, hblock, not_false_eq_true, Function.update_of_ne] at hsub
    exact absurd hsub hsame
  | released t p rest s' hcall hk => exact (hkept hk).elim
  | quiet s' hk => exact (hkept hk).elim

theorem FlowView.created_le {s s' : BusState Tid Val} (h : FlowView s s') :
    s.history.created ≤ s'.history.created := by
  cases h with
  | subscribed => exact Nat.le_succ _
  | released t p rest s' hcall hk => exact hk.created.ge
  | quiet s' hk => exact hk.created.ge
  | _ => exact le_rfl

def Registered (s : BusState Tid Val) (block : ℕ) (topic : Bytes) (contract : TypeContract Ty) :
    Prop :=
  ∃ sub, s.boxes block = some sub ∧ sub.topic = topic ∧ sub.contract = contract

/-- Every block under a topic, or still to be served by a `publish`, was registered for that
topic with that contract, and no block is there twice. -/
structure RegistryInvariant (s : BusState Tid Val) : Prop where
  fresh : ∀ block, s.history.created ≤ block → s.boxes block = none
  reachable : ∀ block sub, s.boxes block = some sub →
    (mailboxSystem Tid (Publication Tid Val) sub.options).Reachable sub.state
  listed : ∀ topic contract, s.bus.contractOf topic = some contract →
    ∀ entry ∈ s.bus.subscriptionsOf topic, s.Registered entry.2 topic contract
  listed_nodup : ∀ topic, ((s.bus.subscriptionsOf topic).map Prod.snd).Nodup
  fanout : ∀ t f, (s.threads t).call.fanout = some f → f.remaining.Nodup ∧
    ∀ block ∈ f.remaining, s.Registered block f.publication.topic f.publication.contract

namespace RegistryInvariant
variable {s s' : BusState Tid Val}

theorem initial : RegistryInvariant ({} : BusState Tid Val) := by
  refine ⟨fun _ _ => rfl, ?_, ?_, ?_, ?_⟩
  · rintro block sub ⟨⟩
  · rintro topic contract hcontract
    simp [TopicBus.contractOf] at hcontract
  · intro topic
    simp [TopicBus.subscriptionsOf]
  · rintro t f ⟨⟩

/-- Registrations outlive every step. -/
theorem registered (h : RegistryInvariant s) (hs : FlowView s s') {block : ℕ} {topic : Bytes}
    {contract : TypeContract Ty} (hblock : s.Registered block topic contract) :
    s'.Registered block topic contract := by
  obtain ⟨sub, hsub, htopic, hcontract⟩ := hblock
  obtain ⟨state, hstate, -⟩ := hs.box (h.fresh _ le_rfl) hsub
  exact ⟨_, hstate, htopic, hcontract⟩

theorem listed_lt (h : RegistryInvariant s) {topic : Bytes} {entry : BitVec 64 × ℕ}
    (hentry : entry ∈ s.bus.subscriptionsOf topic) : entry.2 < s.history.created := by
  by_contra hge
  obtain ⟨contract, hcontract⟩ := TopicBus.contractOf_of_mem hentry
  obtain ⟨sub, hsub, -⟩ := h.listed topic contract hcontract entry hentry
  rw [h.fresh entry.2 (not_lt.mp hge)] at hsub
  cases hsub

theorem step (h : RegistryInvariant s) (hs : FlowView s s') : RegistryInvariant s' := by
  have hfresh (block : ℕ) (hle : s'.history.created ≤ block) : s'.boxes block = none := by
    have hnone := h.fresh block (hs.created_le.trans hle)
    by_contra hsome
    obtain ⟨sub, hsub⟩ := Option.ne_none_iff_exists'.mp hsome
    obtain ⟨hblock, hcreated, -⟩ := hs.newBox hnone hsub
    omega
  have hreachable (block : ℕ) (sub : BusSubscription Tid Val) (hsub : s'.boxes block = some sub) :
      (mailboxSystem Tid (Publication Tid Val) sub.options).Reachable sub.state := by
    cases hold : s.boxes block with
    | none => exact .init (hs.newBox hold hsub).2.2
    | some old =>
      obtain ⟨state, hstate, hmoved⟩ := hs.box (h.fresh _ le_rfl) hold
      cases hstate.symm.trans hsub
      have hbefore := h.reachable block old hold
      rcases hmoved with rfl | ⟨act, hact⟩
      · exact hbefore
      · exact hbefore.step hact
  have hlisted (hmono : ∀ u c, s.bus.contractOf u = some c → s'.bus.contractOf u = some c)
      {topic : Bytes} {contract : TypeContract Ty} {entry : BitVec 64 × ℕ}
      (hcontract : s'.bus.contractOf topic = some contract)
      (hentry : entry ∈ s.bus.subscriptionsOf topic) : s'.Registered entry.2 topic contract := by
    obtain ⟨old, hold⟩ := TopicBus.contractOf_of_mem hentry
    cases (hmono topic old hold).symm.trans hcontract
    exact h.registered hs (h.listed topic _ hold entry hentry)
  have hfanout {t : Tid} {f : Fanout Tid Val} (hf : (s.threads t).call.fanout = some f) :
      f.remaining.Nodup ∧
        ∀ block ∈ f.remaining, s'.Registered block f.publication.topic f.publication.contract := by
    obtain ⟨hnodup, hblocks⟩ := h.fanout t f hf
    exact ⟨hnodup, fun block hblock => h.registered hs (hblocks block hblock)⟩
  have hkept (hk : Kept s s')
      (hcalls : ∀ u f, (s'.threads u).call.fanout = some f → (s.threads u).call.fanout = some f) :
      RegistryInvariant s' := by
    refine ⟨hfresh, hreachable, fun topic contract hcontract entry hentry => ?_, fun topic => ?_,
      fun t f hf => hfanout (hcalls t f hf)⟩
    · exact hlisted (fun u c hc => (hk.contracts u).trans hc) hcontract
        ((hk.listed topic).subset hentry)
    · exact (h.listed_nodup topic).sublist ((hk.listed topic).map Prod.snd)
  cases hs with
  | advertised topic contract bus returns hregisters =>
    refine ⟨hfresh, hreachable, fun u c hc entry hentry => ?_, fun u => ?_, fun t f => hfanout⟩
    · rw [hregisters.subscriptionsOf] at hentry
      exact hlisted hregisters.contractOf_mono hc hentry
    · rw [hregisters.subscriptionsOf]
      exact h.listed_nodup u
  | subscribed topic contract options bus block returns hregisters hcreate =>
    have hmono (u : Bytes) (c : TypeContract Ty) (hc : s.bus.contractOf u = some c) :
        ({ bus with nextSubscriptionId := bus.nextSubscriptionId + 1 }.addSubscription topic
          bus.nextSubscriptionId s.history.created).contractOf u = some c := by
      rw [TopicBus.contractOf_addSubscription]
      exact hregisters.contractOf_mono u c hc
    have hold (u : Bytes) : TopicBus.subscriptionsOf
        { bus with nextSubscriptionId := bus.nextSubscriptionId + 1 } u =
          s.bus.subscriptionsOf u := hregisters.subscriptionsOf u
    refine ⟨hfresh, hreachable, fun u c hc entry hentry => ?_, fun u => ?_, fun t f => hfanout⟩
    · rcases TopicBus.subscriptionsOf_addSubscription
          { bus with nextSubscriptionId := bus.nextSubscriptionId + 1 } topic u
          bus.nextSubscriptionId s.history.created with hsame | ⟨hu, happend⟩
      · rw [hsame, hold] at hentry
        exact hlisted hmono hc hentry
      · rw [happend, hold] at hentry
        rcases List.mem_append.mp hentry with hentry | hnew
        · exact hlisted hmono hc hentry
        · -- the new entry is the new block
          cases List.mem_singleton.mp hnew
          rw [TopicBus.contractOf_addSubscription] at hc
          have hcontract := hregisters.contractOf u
          rw [if_pos hu] at hcontract
          cases hcontract.symm.trans hc
          exact ⟨_, Function.update_self _ _ _, hu.symm, rfl⟩
    · rcases TopicBus.subscriptionsOf_addSubscription
          { bus with nextSubscriptionId := bus.nextSubscriptionId + 1 } topic u
          bus.nextSubscriptionId s.history.created with hsame | ⟨hu, happend⟩
      · rw [hsame, hold]
        exact h.listed_nodup u
      · rw [happend, hold, List.map_append]
        refine (h.listed_nodup u).append (List.nodup_singleton _) ?_
        rw [List.map_singleton, List.disjoint_singleton]
        intro hmem
        obtain ⟨entry, hentry, hblock⟩ := List.mem_map.mp hmem
        have hlt := h.listed_lt hentry
        omega
  | snapshot t p record order result hcall hrecord hcontract hnumber hpublisher horder =>
    have hmono (u : Bytes) (c : TypeContract Ty) (hc : s.bus.contractOf u = some c) :
        (s.bus.emplace p.topic { record with
          subscriptions := record.subscriptions.filter fun entry => !s.expired entry.2 }).contractOf
            u = some c := by
      rwa [TopicBus.contractOf_emplace_of_lookup hrecord]
    have hsublist := TopicBus.subscriptionsOf_emplace_sublist hrecord
      (List.filter_sublist (p := fun entry => !s.expired entry.2))
    refine ⟨hfresh, hreachable, fun u c hc entry hentry => ?_, fun u => ?_, fun u f hf => ?_⟩
    · exact hlisted hmono hc ((hsublist u).subset hentry)
    · exact (h.listed_nodup u).sublist ((hsublist u).map Prod.snd)
    · simp only [setCall_threads] at hf
      split at hf
      case isTrue hut =>
        cases hf
        have hlive : (record.subscriptions.filter fun entry => !s.expired entry.2).Sublist
            (s.bus.subscriptionsOf p.topic) := by
          rw [TopicBus.subscriptionsOf_of_lookup hrecord]
          exact List.filter_sublist
        refine ⟨horder.nodup_iff.mpr ((h.listed_nodup p.topic).sublist (hlive.map Prod.snd)), ?_⟩
        intro block hblock
        obtain ⟨entry, hentry, rfl⟩ := List.mem_map.mp (horder.mem_iff.mp hblock)
        refine hlisted hmono ?_ (hlive.subset hentry)
        show TopicBus.contractOf _ p.topic = some p.contract
        rw [← hcontract]
        exact hmono _ _ (TopicBus.contractOf_of_lookup hrecord)
      case isFalse => exact hfanout hf
  | locked t c hcall hfree =>
    refine ⟨hfresh, hreachable, fun u c hc entry hentry => ?_, h.listed_nodup, fun u f hf => ?_⟩
    · exact hlisted (fun _ _ hc => hc) hc hentry
    · simp only [setCall_threads] at hf
      split at hf
      case isTrue hut =>
        cases hf
        exact hfanout (f := ⟨c.publication, c.remaining, false⟩) (by rw [hcall]; rfl)
      case isFalse => exact hfanout hf
  | enqueued t p block rest sub state call outcomes hcall hnext hsub hstate =>
    refine ⟨hfresh, hreachable, fun u c hc entry hentry => ?_, h.listed_nodup, fun u f hf => ?_⟩
    · exact hlisted (fun _ _ hc => hc) hc hentry
    · simp only [setCall_threads] at hf
      split at hf
      case isTrue hut =>
        cases hnext.symm.trans hf
        obtain ⟨hnodup, hblocks⟩ := hfanout hcall
        exact ⟨hnodup.of_cons, fun other hother => hblocks other (List.mem_cons_of_mem _ hother)⟩
      case isFalse => exact hfanout hf
  | released t p rest s' hcall hk hdispatch hcalls =>
    refine hkept hk fun u f hf => ?_
    rw [hcalls] at hf
    split at hf
    case isTrue => cases hf
    case isFalse => exact hf
  | quiet s' hk hdispatch hcalls => exact hkept hk fun u f hf => (hcalls u).symm.trans hf

end RegistryInvariant

variable [DecidableEq Ty]

theorem step_flow {s s' : BusState Tid Val} {a : BusAction Tid Val} (h : s.step a = some s') :
    FlowView s s' := by
  cases step_view h with
  | advertised t topic contract bus huser haccepting hregisters =>
    exact .advertised topic contract bus _ hregisters
  | subscribed t topic contract options hasCallback bus block huser haccepting hregisters hcreate =>
    exact .subscribed topic contract options bus block _ hregisters
      (SubscriptionControlBlock.create_hasCallback hcreate)
  | snapshot t p record order huser haccepting hrecord hcontract hcall hpublisher horder =>
    exact .snapshot t p record order _ (call_of_userCode huser) hrecord hcontract hcall hpublisher
      horder
  | threw t a publishes e huser hregistry hactor hle =>
    exact .quiet _ (.of_same rfl rfl rfl rfl rfl rfl hle) rfl fun _ => rfl
  | locked t c hcall hfree => exact .locked t c hcall hfree
  | enqueued t p block rest result sub state call outcomes hcall hsub hstate hnext =>
    have hfanout : call.fanout = some ⟨p, rest, true⟩ := by
      rcases hnext with ⟨-, rfl, -⟩ | ⟨-, rfl, -⟩ <;> rfl
    exact .enqueued t p block rest sub state call outcomes (by rw [hcall]; rfl) hfanout hsub hstate
  | posted t c block outcome sub state hcall hsub hposting hstate =>
    refine .quiet _ ((Kept.of_setBox hsub hstate (by simp)).congr rfl rfl rfl rfl rfl rfl rfl) rfl
      fun u => ?_
    simp only [delivered, setCall_threads]
    split
    case isTrue hut => rw [hut, hcall]; rfl
    case isFalse => rfl
  | postFailed t c block outcome result sub state hcall hsub hposting hfailed hstate =>
    exact .quiet _ (.of_setBox hsub hstate (by simp)) rfl fun _ => rfl
  | cleaned t c block outcome sub state hcall hsub hcleaning hstate =>
    refine .quiet _ ((Kept.of_setBox hsub hstate (by simp)).congr rfl rfl rfl rfl rfl rfl rfl) rfl
      fun u => ?_
    simp only [delivered, setCall_threads]
    split
    case isTrue hut => rw [hut, hcall]; rfl
    case isFalse => rfl
  | cleanedThrew t c block outcome sub state hcall hsub hcleaning hstate =>
    refine .released t c.publication c.remaining _ (by rw [hcall]; rfl)
      ((Kept.of_setBox hsub hstate (by simp)).congr rfl rfl rfl rfl rfl rfl rfl) rfl fun u => ?_
    simp only [finishPublish, addReturn, setCall_threads]
    split <;> rfl
  | unlocked t p result hcall =>
    refine .released t p [] _ (by rw [hcall]; rfl) (.of_same rfl rfl rfl rfl rfl rfl le_rfl) rfl
      fun u => ?_
    simp only [finishPublish, addReturn, setCall_threads]
    split <;> rfl
  | unsubscribed t topic id huser =>
    exact .quiet _ ⟨fun _ => TopicBus.contractOf_unsubscribe id,
      fun u => TopicBus.subscriptionsOf_unsubscribe id u,
      TopicBus.unsubscribe_nextSubscriptionId id, fun _ => .inl rfl, rfl, rfl, rfl, rfl, le_rfl⟩ rfl
      fun _ => rfl
  | owner t a act block sub state call hact hold hnew hstopping hsub hstate =>
    have hquiet : ∀ u message isRemote, act ≠ .enqueue u message isRemote := by
      cases hact <;> simp
    refine .quiet _ ((Kept.of_setBox hsub hstate hquiet).congr rfl rfl rfl rfl rfl rfl rfl) rfl
      fun u => ?_
    simp only [setCall_threads]
    split
    case isTrue hut => rw [hut, hold]; exact hnew
    case isFalse => rfl
  | expired block => exact .quiet _ (.of_same rfl rfl rfl rfl rfl rfl le_rfl) rfl fun _ => rfl
  | stopping t order huser =>
    refine .quiet _ ⟨fun _ => TopicBus.contractOf_stop _, fun u => TopicBus.subscriptionsOf_stop _ u,
      TopicBus.stop_nextSubscriptionId _, fun _ => .inl rfl, rfl, rfl, rfl, rfl, le_rfl⟩ rfl
      fun u => ?_
    simp only [setCall_threads]
    split
    case isTrue hut => rw [hut, call_of_userCode huser]; rfl
    case isFalse => rfl
  | stopReturned t hcall =>
    refine .quiet _ (.of_same rfl rfl rfl rfl rfl rfl le_rfl) rfl fun u => ?_
    simp only [addReturn, setCall_threads]
    split
    case isTrue hut => rw [hut, hcall]; rfl
    case isFalse => rfl
  | startedDrain t block sub state hcall hdrain hsub hstate =>
    refine .quiet _ ((Kept.of_setBox hsub hstate (by simp)).congr rfl rfl rfl rfl rfl rfl rfl) rfl
      fun u => ?_
    simp only [setDrain_threads]
    split
    case isTrue hut => rw [hut]; rfl
    case isFalse => rfl
  | drained t a act block sub state drain hact hcall hdrain hsub hstate hnext =>
    have hquiet : ∀ u message isRemote, act ≠ .enqueue u message isRemote := by
      cases hact <;> simp
    refine .quiet _ ((Kept.of_setBox hsub hstate hquiet).congr rfl rfl rfl rfl rfl rfl rfl) rfl
      fun u => ?_
    simp only [setDrain_threads]
    split
    case isTrue hut => rw [hut]; rfl
    case isFalse => rfl

theorem registryInvariant_of_reachable {s : BusState Tid Val}
    (h : (busSystem Tid Val).Reachable s) : RegistryInvariant s := by
  refine TransitionSystem.Reachable.invariant ?_ (fun s a s' _ hs hstep => hs.step (step_flow hstep))
    h
  rintro s rfl
  exact .initial

end BusState
end RobotMiddleware
