import RobotMiddleware.TopicBusModel

/-! What the sections of the registry and the steps of the bus can do, said once. -/
namespace RobotMiddleware

namespace TopicBus
variable {Ty : Type} {α β : Type} {topic : Bytes} {contract : TypeContract Ty}
  {b b' : TopicBus Ty}

/-- A section `x >>= f` throws in `x`, or goes on with `f` in what `x` left behind. -/
theorem run_bind {x : BusM Ty α} {f : α → BusM Ty β} {r : Except MiddlewareError β}
    (h : (x >>= f).run.run b = (r, b')) :
    (∃ a b₁, x.run.run b = (.ok a, b₁) ∧ (f a).run.run b₁ = (r, b')) ∨
      ∃ e, x.run.run b = (.error e, b') ∧ r = .error e := by
  change (match x.run.run b with
    | (result, b₁) => (ExceptT.bindCont f result).run b₁) = (r, b') at h
  rcases hx : x.run.run b with ⟨e | a, b₁⟩ <;> rw [hx] at h
  · cases h
    exact .inr ⟨e, rfl, rfl⟩
  · exact .inl ⟨a, b₁, rfl, h⟩

theorem run_bind_ok {x : BusM Ty α} {f : α → BusM Ty β} {a : α}
    (h : x.run.run b = (.ok a, b')) : (x >>= f).run.run b = (f a).run.run b' := by
  change (match x.run.run b with
    | (result, b₁) => (ExceptT.bindCont f result).run b₁) = _
  rw [h]
  rfl

theorem run_requireAccepting {r : Except MiddlewareError Unit}
    (h : (requireAccepting : BusM Ty Unit).run.run b = (r, b')) :
    b' = b ∧ (b.accepting = true ∧ r = .ok () ∨ ∃ e, r = .error e) := by
  change (if !b.accepting then throw stoppedError else pure () : BusM Ty Unit).run.run b = _ at h
  split at h
  case isTrue =>
    cases h
    exact ⟨rfl, .inr ⟨_, rfl⟩⟩
  case isFalse haccepting =>
    cases h
    exact ⟨rfl, .inl ⟨by simpa using haccepting, rfl⟩⟩

theorem run_validateTopic {r : Except MiddlewareError Unit}
    (h : (validateTopic topic : BusM Ty Unit).run.run b = (r, b')) :
    b' = b ∧ (r = .ok () ∨ ∃ e, r = .error e) := by
  unfold validateTopic at h
  split at h <;> cases h
  · exact ⟨rfl, .inr ⟨_, rfl⟩⟩
  · exact ⟨rfl, .inl rfl⟩

variable [DecidableEq Ty]

theorem run_validateType {record : TopicRecord Ty} {r : Except MiddlewareError Unit}
    (h : (validateType topic record contract).run.run b = (r, b')) :
    b' = b ∧ (record.contract = contract ∧ r = .ok () ∨ ∃ e, r = .error e) := by
  unfold validateType at h
  split at h <;> cases h
  case isTrue => exact ⟨rfl, .inr ⟨_, rfl⟩⟩
  case isFalse hsame => exact ⟨rfl, .inl ⟨not_not.mp hsame, rfl⟩⟩

/-- A registration that succeeds fixes the contract of a new topic or agrees with it. -/
inductive Registers (topic : Bytes) (contract : TypeContract Ty) (b : TopicBus Ty) :
    TopicBus Ty → Prop
  | first : b.topics.lookup topic = none →
      Registers topic contract b (b.emplace topic { contract := contract })
  | known (record : TopicRecord Ty) : b.topics.lookup topic = some record →
      record.contract = contract → Registers topic contract b b

theorem run_findOrEmplace_of_none (h : b.topics.lookup topic = none) :
    (findOrEmplace topic contract).run.run b =
      (.ok (), b.emplace topic { contract := contract }) := by
  have hget : (get : BusM Ty (TopicBus Ty)).run.run b = (.ok b, b) := rfl
  rw [findOrEmplace, run_bind_ok hget, h]
  rfl

theorem run_findOrEmplace_of_some {record : TopicRecord Ty}
    (h : b.topics.lookup topic = some record) :
    (findOrEmplace topic contract).run.run b =
      (validateType topic record contract : BusM Ty Unit).run.run b := by
  have hget : (get : BusM Ty (TopicBus Ty)).run.run b = (.ok b, b) := rfl
  rw [findOrEmplace, run_bind_ok hget, h]

theorem findOrEmplace_cases {r : Except MiddlewareError Unit}
    (h : (findOrEmplace topic contract).run.run b = (r, b')) :
    (∃ e, r = .error e ∧ b' = b) ∨ r = .ok () ∧ Registers topic contract b b' := by
  cases hlookup : b.topics.lookup topic with
  | none =>
    rw [run_findOrEmplace_of_none hlookup] at h
    cases h
    exact .inr ⟨rfl, .first hlookup⟩
  | some record =>
    rw [run_findOrEmplace_of_some hlookup] at h
    obtain ⟨rfl, ⟨hcontract, hr⟩ | ⟨e, hr⟩⟩ := run_validateType h
    · exact .inr ⟨hr, .known record hlookup hcontract⟩
    · exact .inl ⟨e, hr, rfl⟩

/-- A call that throws has changed nothing. -/
theorem advertise_cases {r : Except MiddlewareError Unit}
    (h : (advertise topic contract).run.run b = (r, b')) :
    (∃ e, r = .error e ∧ b' = b) ∨
      r = .ok () ∧ b.accepting = true ∧ Registers topic contract b b' := by
  obtain ⟨_, b₁, htopic, hlocked⟩ | ⟨e, htopic, hr⟩ := run_bind h
  · obtain ⟨rfl, -⟩ := run_validateTopic htopic
    obtain ⟨_, b₂, hcheck, hregister⟩ | ⟨e, hcheck, hr⟩ := run_bind hlocked
    · obtain ⟨rfl, ⟨haccepting, -⟩ | ⟨e, hr⟩⟩ := run_requireAccepting hcheck
      · exact (findOrEmplace_cases hregister).imp_right fun ⟨hr, hregisters⟩ =>
          ⟨hr, haccepting, hregisters⟩
      · cases hr
    · exact .inl ⟨e, hr, (run_requireAccepting hcheck).1⟩
  · exact .inl ⟨e, hr, (run_validateTopic htopic).1⟩

omit [DecidableEq Ty] in
theorem run_create {Tid Msg : Type} {options : SubscriptionOptions} {hasCallback : Bool}
    {r : Except MiddlewareError (SubscriptionControlBlock Tid Msg)}
    (h : ((SubscriptionControlBlock.create options hasCallback :
      Except MiddlewareError (SubscriptionControlBlock Tid Msg)) : BusM Ty _).run.run b =
        (r, b')) :
    b' = b ∧ r = SubscriptionControlBlock.create options hasCallback := by
  cases h
  exact ⟨rfl, rfl⟩

/-- The control block is built before the registry is locked, so its errors come first. -/
theorem subscribe_cases {Tid Msg : Type} {options : SubscriptionOptions} {hasCallback : Bool}
    {block : ℕ} {r : Except MiddlewareError (BitVec 64 × SubscriptionControlBlock Tid Msg)}
    (h : (subscribe topic contract options hasCallback block).run.run b = (r, b')) :
    (∃ e, r = .error e ∧ b' = b) ∨
      ∃ state b₁, r = .ok (b₁.nextSubscriptionId, state) ∧
        SubscriptionControlBlock.create options hasCallback = .ok state ∧
        b.accepting = true ∧ Registers topic contract b b₁ ∧
        b' = { b₁ with nextSubscriptionId := b₁.nextSubscriptionId + 1 }.addSubscription topic
          b₁.nextSubscriptionId block := by
  obtain ⟨_, b₁, htopic, hbuild⟩ | ⟨e, htopic, hr⟩ := run_bind h
  · obtain ⟨rfl, -⟩ := run_validateTopic htopic
    obtain ⟨state, b₂, hcreate, hlocked⟩ | ⟨e, hcreate, hr⟩ := run_bind hbuild
    · obtain ⟨rfl, hstate⟩ := run_create hcreate
      obtain ⟨_, b₃, hcheck, hregister⟩ | ⟨e, hcheck, hr⟩ := run_bind hlocked
      · obtain ⟨rfl, ⟨haccepting, -⟩ | ⟨e, hr⟩⟩ := run_requireAccepting hcheck
        · obtain ⟨_, b₄, hfind, hid⟩ | ⟨e, hfind, hr⟩ := run_bind hregister
          · obtain ⟨e, hr, -⟩ | ⟨-, hregisters⟩ := findOrEmplace_cases hfind
            · cases hr
            · -- no throw is left once the contract is settled
              cases hid
              exact .inr ⟨state, b₄, rfl, hstate.symm, haccepting, hregisters, rfl⟩
          · obtain ⟨e', he, hb⟩ | ⟨hr', -⟩ := findOrEmplace_cases hfind
            · exact .inl ⟨e, hr, hb⟩
            · cases hr'
        · cases hr
      · exact .inl ⟨e, hr, (run_requireAccepting hcheck).1⟩
    · exact .inl ⟨e, hr, (run_create hcreate).1⟩
  · exact .inl ⟨e, hr, (run_validateTopic htopic).1⟩

/-- A subscription to an open bus succeeds, unless the topic has another contract. -/
theorem run_subscribe {Tid Msg : Type} {options : SubscriptionOptions}
    {state : SubscriptionControlBlock Tid Msg} (block : ℕ) (htopic : topic ≠ [])
    (hcreate : SubscriptionControlBlock.create options true = .ok state)
    (haccepting : b.accepting = true)
    (hrecord : ∀ record, b.topics.lookup topic = some record → record.contract = contract) :
    ∃ b₁, Registers topic contract b b₁ ∧
      (subscribe topic contract options true block :
        BusM Ty (BitVec 64 × SubscriptionControlBlock Tid Msg)).run.run b =
      (.ok (b₁.nextSubscriptionId, state),
        { b₁ with nextSubscriptionId := b₁.nextSubscriptionId + 1 }.addSubscription topic
          b₁.nextSubscriptionId block) := by
  have hvalid : (validateTopic topic : BusM Ty Unit).run.run b = (.ok (), b) := by
    rw [validateTopic, if_neg htopic]
    rfl
  have hbuild : ((SubscriptionControlBlock.create options true : Except MiddlewareError
      (SubscriptionControlBlock Tid Msg)) : BusM Ty _).run.run b = (.ok state, b) := by
    rw [hcreate]
    rfl
  have hopen : (requireAccepting : BusM Ty Unit).run.run b = (.ok (), b) := by
    change (if !b.accepting then throw stoppedError else pure () : BusM Ty Unit).run.run b = _
    rw [haccepting]
    rfl
  have hfind : ∃ b₁, Registers topic contract b b₁ ∧
      (findOrEmplace topic contract).run.run b = (.ok (), b₁) := by
    cases hlookup : b.topics.lookup topic with
    | none => exact ⟨_, .first hlookup, run_findOrEmplace_of_none hlookup⟩
    | some record =>
      have hsame := hrecord record hlookup
      refine ⟨b, .known record hlookup hsame, (run_findOrEmplace_of_some hlookup).trans ?_⟩
      simp only [validateType, hsame, ne_eq, not_true_eq_false, ↓reduceIte]
      rfl
  obtain ⟨b₁, hregisters, hrun⟩ := hfind
  refine ⟨b₁, hregisters, ?_⟩
  rw [subscribe, run_bind_ok hvalid, run_bind_ok hbuild, run_bind_ok hopen, run_bind_ok hrun]
  rfl

theorem publish_cases {expired : ℕ → Bool} {r : Except MiddlewareError (List ℕ)}
    (h : (publish topic contract expired).run.run b = (r, b')) :
    (∃ e, r = .error e ∧ b' = b) ∨
      ∃ record, b.topics.lookup topic = some record ∧ record.contract = contract ∧
        b.accepting = true ∧
        r = .ok ((record.subscriptions.filter fun entry => !expired entry.2).map Prod.snd) ∧
        b' = b.emplace topic { record with
          subscriptions := record.subscriptions.filter fun entry => !expired entry.2 } := by
  obtain ⟨_, b₁, hcheck, hfind⟩ | ⟨e, hcheck, hr⟩ := run_bind h
  · obtain ⟨rfl, ⟨haccepting, -⟩ | ⟨e, hr⟩⟩ := run_requireAccepting hcheck
    · obtain ⟨found, b₂, hget, hsection⟩ | ⟨e, hget, hr⟩ := run_bind hfind
      · cases hget
        split at hsection
        case h_1 =>
          cases hsection
          exact .inl ⟨_, rfl, rfl⟩
        case h_2 record hrecord =>
          obtain ⟨_, b₃, htype, hprune⟩ | ⟨e, htype, hr⟩ := run_bind hsection
          · obtain ⟨rfl, ⟨hcontract, -⟩ | ⟨e, hr⟩⟩ := run_validateType htype
            · cases hprune
              exact .inr ⟨record, hrecord, hcontract, haccepting, rfl, rfl⟩
            · cases hr
          · exact .inl ⟨e, hr, (run_validateType htype).1⟩
      · cases hget
    · cases hr
  · exact .inl ⟨e, hr, (run_requireAccepting hcheck).1⟩

end TopicBus

/-- What a `publish` call past its snapshot still has to do; `locked` says whether it has the
dispatch mutex of its topic. -/
structure Fanout (Tid : Type) {Ty : Type} (Val : Ty → Type) where
  publication : Publication Tid Val
  remaining : List ℕ
  locked : Bool

def BusCall.fanout {Tid Ty : Type} {Val : Ty → Type} : BusCall Tid Val → Option (Fanout Tid Val)
  | .locking c => some ⟨c.publication, c.remaining, false⟩
  | .dispatching c | .enqueueing c _ => some ⟨c.publication, c.remaining, true⟩
  | _ => .none

def BusAction.actor {Tid Ty : Type} {Val : Ty → Type} : BusAction Tid Val → Option Tid
  | .advertise t _ _ | .subscribe t _ _ _ _ | .publish t _ _ _ _ _ _ | .lockDispatch t
  | .enqueue t | .post t _ | .cleanup t | .unlockDispatch t | .unsubscribe t _ _ | .cancel t _
  | .cancelAndWait t _ | .checkWait t | .wake t | .recheck t | .stop t _ | .stopCancel t
  | .stopReturn t | .startDrain t _ | .pop t | .callbackEnd t _ | .finish t => some t
  | .expire _ => none

def BusAction.registryCall {Tid Ty : Type} {Val : Ty → Type} : BusAction Tid Val → Bool
  | .advertise _ _ _ | .subscribe _ _ _ _ _ | .publish _ _ _ _ _ _ _ => true
  | _ => false

namespace BusState
variable {Tid Ty : Type} {Val : Ty → Type}

def setBox (s : BusState Tid Val) (block : ℕ) (sub : BusSubscription Tid Val)
    (state : MailboxState Tid (Publication Tid Val)) : BusState Tid Val :=
  { s with boxes := Function.update s.boxes block (some { sub with state := state }) }

variable [DecidableEq Tid]

@[simp] theorem setCall_threads (s : BusState Tid Val) (t u : Tid) (call : BusCall Tid Val) :
    (s.setCall t call).threads u = if u = t then { s.threads t with call := call }
      else s.threads u := by
  by_cases h : u = t
  · subst h; simp [setCall]
  · simp [setCall, h]

@[simp] theorem setDrain_threads (s : BusState Tid Val) (t u : Tid) (drain : Option ℕ) :
    (s.setDrain t drain).threads u = if u = t then { s.threads t with drain := drain }
      else s.threads u := by
  by_cases h : u = t
  · subst h; simp [setDrain]
  · simp [setDrain, h]

theorem onBox_eq_some {s s' : BusState Tid Val} {block : ℕ}
    {a : MailboxAction Tid (Publication Tid Val)} (h : s.onBox block a = some s') :
    ∃ sub state, s.boxes block = some sub ∧ sub.state.step a = some state ∧
      s' = s.setBox block sub state := by
  unfold onBox at h
  split at h
  case h_1 sub hsub =>
    obtain ⟨state, hstate, rfl⟩ := Option.map_eq_some_iff.mp h
    exact ⟨sub, state, hsub, hstate, rfl⟩
  case h_2 => cases h

omit [DecidableEq Tid] in
theorem boxThread_eq {s : BusState Tid Val} {block : ℕ} {sub : BusSubscription Tid Val}
    (h : s.boxes block = some sub) (t : Tid) : s.boxThread block t = sub.state.threads t := by
  simp only [boxThread, h]

inductive OwnerAction (t : Tid) :
    BusAction Tid Val → MailboxAction Tid (Publication Tid Val) → Prop
  | cancel (block : ℕ) : OwnerAction t (.cancel t block) (.cancel t)
  | cancelAndWait (block : ℕ) : OwnerAction t (.cancelAndWait t block) (.cancelAndWait t)
  | checkWait : OwnerAction t (.checkWait t) (.checkWait t)
  | wake : OwnerAction t (.wake t) (.wake t)
  | recheck : OwnerAction t (.recheck t) (.recheck t)
  | stopCancel : OwnerAction t (.stopCancel t) (.cancel t)

inductive DrainAction (t : Tid) :
    BusAction Tid Val → MailboxAction Tid (Publication Tid Val) → Prop
  | pop : DrainAction t (.pop t) (.pop t)
  | callbackEnd (threw : Bool) : DrainAction t (.callbackEnd t threw) (.callbackEnd t threw)
  | finish : DrainAction t (.finish t) (.finish t)

variable [DecidableEq Ty]

inductive StepView (s : BusState Tid Val) : BusAction Tid Val → BusState Tid Val → Prop
  | advertised (t : Tid) (topic : Bytes) (contract : TypeContract Ty) (bus : TopicBus Ty) :
      s.userCode t = true → s.bus.accepting = true → s.bus.Registers topic contract bus →
      StepView s (.advertise t topic contract) ({ s with
        bus := bus
        history := { s.history with
          registrations := s.history.registrations ++ [(topic, contract)] } }.addReturn t
        .advertised)
  | subscribed (t : Tid) (topic : Bytes) (contract : TypeContract Ty)
      (options : SubscriptionOptions) (hasCallback : Bool) (bus : TopicBus Ty)
      (block : SubscriptionControlBlock Tid (Publication Tid Val)) :
      s.userCode t = true → s.bus.accepting = true → s.bus.Registers topic contract bus →
      SubscriptionControlBlock.create options hasCallback = .ok block →
      StepView s (.subscribe t topic contract options hasCallback) ({ s with
        bus := { bus with nextSubscriptionId := bus.nextSubscriptionId + 1 }.addSubscription topic
          bus.nextSubscriptionId s.history.created
        boxes := Function.update s.boxes s.history.created (some {
          topic := topic, contract := contract, options := options
          id := bus.nextSubscriptionId, state := { block := block } })
        history := { s.history with
          created := s.history.created + 1
          registrations := s.history.registrations ++ [(topic, contract)]
          ids := s.history.ids ++ [bus.nextSubscriptionId] } }.addReturn t
        (.subscribed bus.nextSubscriptionId))
  | snapshot (t : Tid) (p : Publication Tid Val) (record : TopicRecord Ty) (order : List ℕ) :
      s.userCode t = true → s.bus.accepting = true →
      s.bus.topics.lookup p.topic = some record → record.contract = p.contract →
      p.call = s.history.publishes → p.publisher = t →
      order.Perm ((record.subscriptions.filter fun entry => !s.expired entry.2).map Prod.snd) →
      StepView s (.publish t p.topic p.typeId p.schemaHash p.message p.isRemote order) ({ s with
        bus := s.bus.emplace p.topic { record with
          subscriptions := record.subscriptions.filter fun entry => !s.expired entry.2 }
        history := { s.history with publishes := s.history.publishes + 1 } }.setCall t
        (.locking ⟨p, order, { matchedSubscribers := order.length }⟩))
  | threw (t : Tid) (a : BusAction Tid Val) (publishes : ℕ) (e : MiddlewareError) :
      s.userCode t = true → a.registryCall = true → a.actor = some t →
      s.history.publishes ≤ publishes →
      StepView s a ({ s with history := { s.history with publishes := publishes } }.addReturn t
        (.error e))
  | locked (t : Tid) (c : PublishCall Tid Val) : (s.threads t).call = .locking c →
      s.dispatch c.publication.topic = none →
      StepView s (.lockDispatch t) ({ s with
        dispatch := Function.update s.dispatch c.publication.topic (some t)
        history := { s.history with
          dispatched := s.history.dispatched ++ [c.publication] } }.setCall t (.dispatching c))
  | enqueued (t : Tid) (p : Publication Tid Val) (block : ℕ) (rest : List ℕ)
      (result : PublishResult) (sub : BusSubscription Tid Val)
      (state : MailboxState Tid (Publication Tid Val)) (call : BusCall Tid Val)
      (outcomes : List (ℕ × ℕ × DeliveryOutcome)) :
      (s.threads t).call = .dispatching ⟨p, block :: rest, result⟩ → s.boxes block = some sub →
      sub.state.step (.enqueue t p p.isRemote) = some state →
      (sub.state.block.enqueuePush p p.isRemote).mustSchedule = true ∧
          call = .enqueueing ⟨p, rest, result⟩ block ∧ outcomes = s.history.outcomes ∨
        (sub.state.block.enqueuePush p p.isRemote).mustSchedule = false ∧
          call = .dispatching ⟨p, rest,
            result.add (sub.state.block.enqueuePush p p.isRemote).outcome⟩ ∧
          outcomes = s.history.outcomes ++
            [(p.call, block, (sub.state.block.enqueuePush p p.isRemote).outcome)] →
      StepView s (.enqueue t) ({ s.setBox block sub state with
        history := { s.history with outcomes := outcomes } }.setCall t call)
  | posted (t : Tid) (c : PublishCall Tid Val) (block : ℕ) (outcome : DeliveryOutcome)
      (sub : BusSubscription Tid Val) (state : MailboxState Tid (Publication Tid Val)) :
      (s.threads t).call = .enqueueing c block → s.boxes block = some sub →
      (sub.state.threads t).call = .posting outcome →
      sub.state.step (.post t .accepted) = some state →
      StepView s (.post t .accepted) ((s.setBox block sub state).delivered t c block outcome)
  | postFailed (t : Tid) (c : PublishCall Tid Val) (block : ℕ) (outcome : DeliveryOutcome)
      (result : PostResult) (sub : BusSubscription Tid Val)
      (state : MailboxState Tid (Publication Tid Val)) :
      (s.threads t).call = .enqueueing c block → s.boxes block = some sub →
      (sub.state.threads t).call = .posting outcome → result ≠ .accepted →
      sub.state.step (.post t result) = some state →
      StepView s (.post t result) (s.setBox block sub state)
  | cleaned (t : Tid) (c : PublishCall Tid Val) (block : ℕ) (outcome : DeliveryOutcome)
      (sub : BusSubscription Tid Val) (state : MailboxState Tid (Publication Tid Val)) :
      (s.threads t).call = .enqueueing c block → s.boxes block = some sub →
      (sub.state.threads t).call = .cleaning outcome false →
      sub.state.step (.cleanup t) = some state →
      StepView s (.cleanup t) ((s.setBox block sub state).delivered t c block
        { outcome with enqueued := false, executorRejected := true })
  | cleanedThrew (t : Tid) (c : PublishCall Tid Val) (block : ℕ) (outcome : DeliveryOutcome)
      (sub : BusSubscription Tid Val) (state : MailboxState Tid (Publication Tid Val)) :
      (s.threads t).call = .enqueueing c block → s.boxes block = some sub →
      (sub.state.threads t).call = .cleaning outcome true →
      sub.state.step (.cleanup t) = some state →
      StepView s (.cleanup t) ((s.setBox block sub state).finishPublish t c .publishThrew)
  | unlocked (t : Tid) (p : Publication Tid Val) (result : PublishResult) :
      (s.threads t).call = .dispatching ⟨p, [], result⟩ →
      StepView s (.unlockDispatch t) (s.finishPublish t ⟨p, [], result⟩ (.published result))
  | unsubscribed (t : Tid) (topic : Bytes) (id : BitVec 64) : s.userCode t = true →
      StepView s (.unsubscribe t topic id) { s with bus := s.bus.unsubscribe topic id }
  | owner (t : Tid) (a : BusAction Tid Val) (act : MailboxAction Tid (Publication Tid Val))
      (block : ℕ) (sub : BusSubscription Tid Val)
      (state : MailboxState Tid (Publication Tid Val)) (call : BusCall Tid Val) :
      OwnerAction t a act → (s.threads t).call.fanout = none → call.fanout = none →
      (∀ rest, call = .stopping rest → (s.threads t).call = .stopping (block :: rest)) →
      s.boxes block = some sub → sub.state.step act = some state →
      StepView s a ((s.setBox block sub state).setCall t call)
  | expired (block : ℕ) :
      StepView s (.expire block) { s with expired := Function.update s.expired block true }
  | stopping (t : Tid) (order : List ℕ) : s.userCode t = true →
      StepView s (.stop t order)
        ({ s with bus := (s.bus.stop s.expired).1 }.setCall t (.stopping order))
  | stopReturned (t : Tid) : (s.threads t).call = .stopping [] →
      StepView s (.stopReturn t) ((s.setCall t .none).addReturn t .stopped)
  | startedDrain (t : Tid) (block : ℕ) (sub : BusSubscription Tid Val)
      (state : MailboxState Tid (Publication Tid Val)) :
      (s.threads t).call = .none → (s.threads t).drain = none → s.boxes block = some sub →
      sub.state.step (.startDrain t) = some state →
      StepView s (.startDrain t block) ((s.setBox block sub state).setDrain t (some block))
  | drained (t : Tid) (a : BusAction Tid Val) (act : MailboxAction Tid (Publication Tid Val))
      (block : ℕ) (sub : BusSubscription Tid Val)
      (state : MailboxState Tid (Publication Tid Val)) (drain : Option ℕ) :
      DrainAction t a act → (s.threads t).call = .none → (s.threads t).drain = some block →
      s.boxes block = some sub → sub.state.step act = some state →
      (state.threads t).drain = .none ∧ drain = none ∨
        (state.threads t).drain ≠ .none ∧ drain = some block →
      StepView s a ((s.setBox block sub state).setDrain t drain)

omit [DecidableEq Tid] [DecidableEq Ty] in
theorem call_of_userCode {s : BusState Tid Val} {t : Tid} (h : s.userCode t = true) :
    (s.threads t).call = .none := by
  unfold userCode at h
  split at h
  case h_1 hcall _ => exact hcall
  case h_2 hcall _ => exact hcall
  case h_3 => cases h

omit [DecidableEq Ty] in
theorem setCall_self (s : BusState Tid Val) (t : Tid) : s.setCall t (s.threads t).call = s := by
  simp only [setCall, Function.update_eq_self]

omit [DecidableEq Ty] in
theorem setDrain_self (s : BusState Tid Val) (t : Tid) :
    s.setDrain t (s.threads t).drain = s := by
  simp only [setDrain, Function.update_eq_self]

variable {s s' : BusState Tid Val}

omit [DecidableEq Ty] in
theorem waitStep_view {t : Tid} {a : BusAction Tid Val}
    {act : MailboxAction Tid (Publication Tid Val)} (hact : OwnerAction t a act)
    (h : s.waitStep t act = some s') : StepView s a s' := by
  unfold waitStep at h
  split at h
  case h_1 block hcall =>
    obtain ⟨_, hbox, rfl⟩ := Option.map_eq_some_iff.mp h
    obtain ⟨sub, state, hsub, hstate, rfl⟩ := onBox_eq_some hbox
    have hfanout : (s.threads t).call.fanout = none := by rw [hcall]; rfl
    split
    case isTrue => exact .owner t a act block sub state .none hact hfanout rfl (by simp) hsub hstate
    case isFalse =>
      have hview := StepView.owner (s := s) t a act block sub state (.waiting block) hact
        hfanout rfl (by simp) hsub hstate
      rwa [← hcall, show (s.threads t).call = ((s.setBox block sub state).threads t).call from rfl,
        setCall_self] at hview
  case h_2 => cases h

omit [DecidableEq Ty] in
theorem drainStep_view {t : Tid} {a : BusAction Tid Val}
    {act : MailboxAction Tid (Publication Tid Val)} (hact : DrainAction t a act)
    (h : s.drainStep t act = some s') : StepView s a s' := by
  unfold drainStep at h
  split at h
  case h_1 block hcall hdrain =>
    obtain ⟨_, hbox, rfl⟩ := Option.map_eq_some_iff.mp h
    obtain ⟨sub, state, hsub, hstate, rfl⟩ := onBox_eq_some hbox
    have hthread : (s.setBox block sub state).boxThread block t = state.threads t := by
      simp only [boxThread, setBox, Function.update_self]
    rw [hthread]
    split
    case h_1 hnone =>
      exact .drained t a act block sub state none hact hcall hdrain hsub hstate
        (.inl ⟨hnone, rfl⟩)
    case h_2 hsome =>
      have hview := StepView.drained (s := s) t a act block sub state (some block) hact hcall
        hdrain hsub hstate (.inr ⟨hsome, rfl⟩)
      rwa [← hdrain, show (s.threads t).drain = ((s.setBox block sub state).threads t).drain
        from rfl, setDrain_self] at hview
  case h_2 => cases h

theorem step_view {a : BusAction Tid Val} (h : s.step a = some s') : StepView s a s' := by
  cases a with
  | advertise t topic contract =>
    simp only [step, Option.ite_none_right_eq_some] at h
    obtain ⟨huser, h⟩ := h
    rcases hrun : (TopicBus.advertise topic contract).run.run s.bus with ⟨r, bus⟩
    rw [hrun] at h
    obtain ⟨e, rfl, rfl⟩ | ⟨rfl, haccepting, hregisters⟩ := TopicBus.advertise_cases hrun
    · cases h
      exact .threw t _ s.history.publishes e huser rfl rfl le_rfl
    · cases h
      exact .advertised t topic contract bus huser haccepting hregisters
  | subscribe t topic contract options hasCallback =>
    simp only [step, Option.ite_none_right_eq_some] at h
    obtain ⟨huser, h⟩ := h
    rcases hrun : (TopicBus.subscribe topic contract options hasCallback s.history.created :
      BusM Ty (BitVec 64 × SubscriptionControlBlock Tid (Publication Tid Val))).run.run s.bus with
      ⟨r, bus⟩
    rw [hrun] at h
    obtain ⟨e, rfl, rfl⟩ | ⟨block, bus₁, rfl, hcreate, haccepting, hregisters, rfl⟩ :=
      TopicBus.subscribe_cases hrun
    · cases h
      exact .threw t _ s.history.publishes e huser rfl rfl le_rfl
    · cases h
      exact .subscribed t topic contract options hasCallback bus₁ block huser haccepting
        hregisters hcreate
  | publish t topic typeId schemaHash message isRemote order =>
    simp only [step, Option.ite_none_right_eq_some] at h
    obtain ⟨huser, h⟩ := h
    generalize hp : (⟨s.history.publishes, t, topic, typeId, schemaHash, message, isRemote⟩ :
      Publication Tid Val) = p at h
    rcases hrun : (TopicBus.publish topic p.contract s.expired).run.run s.bus with ⟨r, bus⟩
    rw [hrun] at h
    obtain ⟨e, rfl, rfl⟩ | ⟨record, hrecord, hcontract, haccepting, rfl, rfl⟩ :=
      TopicBus.publish_cases hrun
    · cases h
      exact .threw t _ (s.history.publishes + 1) e huser rfl rfl (Nat.le_succ _)
    · simp only [Option.ite_none_right_eq_some] at h
      obtain ⟨horder, h⟩ := h
      cases h
      subst hp
      have hperm := List.isPerm_iff.mp horder
      rw [← hperm.length_eq]
      exact .snapshot t _ record order huser haccepting hrecord hcontract rfl rfl hperm
  | lockDispatch t =>
    simp only [step] at h
    split at h
    case h_1 c hcall =>
      simp only [Option.ite_none_right_eq_some, Option.isNone_iff_eq_none] at h
      obtain ⟨hfree, h⟩ := h
      cases h
      exact .locked t c hcall hfree
    case h_2 => cases h
  | enqueue t =>
    simp only [step] at h
    split at h
    case h_1 p block rest result hcall =>
      split at h
      case h_1 sub hsub =>
        obtain ⟨_, hbox, rfl⟩ := Option.map_eq_some_iff.mp h
        obtain ⟨sub', state, hsub', hstate, rfl⟩ := onBox_eq_some hbox
        cases hsub.symm.trans hsub'
        split
        case isTrue hmust =>
          exact .enqueued t p block rest result sub state _ _ hcall hsub hstate
            (.inl ⟨hmust, rfl, rfl⟩)
        case isFalse hmust =>
          exact .enqueued t p block rest result sub state _ _ hcall hsub hstate
            (.inr ⟨by simpa using hmust, rfl, rfl⟩)
      case h_2 => cases h
    case h_2 => cases h
  | post t result =>
    simp only [step] at h
    split at h
    case h_1 c block hcall =>
      split at h
      case h_1 outcome hposting =>
        obtain ⟨_, hbox, rfl⟩ := Option.map_eq_some_iff.mp h
        obtain ⟨sub, state, hsub, hstate, rfl⟩ := onBox_eq_some hbox
        rw [boxThread_eq hsub] at hposting
        split
        case h_1 => exact .posted t c block outcome sub state hcall hsub hposting hstate
        case h_2 hfailed =>
          exact .postFailed t c block outcome _ sub state hcall hsub hposting hfailed hstate
      case h_2 => cases h
    case h_2 => cases h
  | cleanup t =>
    simp only [step] at h
    split at h
    case h_1 c block hcall =>
      split at h
      case h_1 outcome threw hcleaning =>
        obtain ⟨_, hbox, rfl⟩ := Option.map_eq_some_iff.mp h
        obtain ⟨sub, state, hsub, hstate, rfl⟩ := onBox_eq_some hbox
        rw [boxThread_eq hsub] at hcleaning
        cases threw with
        | true => exact .cleanedThrew t c block outcome sub state hcall hsub hcleaning hstate
        | false => exact .cleaned t c block outcome sub state hcall hsub hcleaning hstate
      case h_2 => cases h
    case h_2 => cases h
  | unlockDispatch t =>
    simp only [step] at h
    split at h
    case h_1 p result hcall => cases h; exact .unlocked t p result hcall
    case h_2 => cases h
  | unsubscribe t topic id =>
    simp only [step, Option.ite_none_right_eq_some, Option.some.injEq] at h
    obtain ⟨huser, rfl⟩ := h
    exact .unsubscribed t topic id huser
  | cancel t block =>
    simp only [step, Option.ite_none_right_eq_some] at h
    obtain ⟨huser, h⟩ := h
    obtain ⟨sub, state, hsub, hstate, rfl⟩ := onBox_eq_some h
    have hcall := call_of_userCode huser
    have hview := StepView.owner (s := s) t (.cancel t block) (.cancel t) block sub state .none
      (.cancel block) (by rw [hcall]; rfl) rfl (by simp) hsub hstate
    rwa [← hcall, show (s.threads t).call = ((s.setBox block sub state).threads t).call from rfl,
      setCall_self] at hview
  | cancelAndWait t block =>
    simp only [step, Option.ite_none_right_eq_some] at h
    obtain ⟨huser, h⟩ := h
    obtain ⟨_, hbox, rfl⟩ := Option.map_eq_some_iff.mp h
    obtain ⟨sub, state, hsub, hstate, rfl⟩ := onBox_eq_some hbox
    exact .owner t _ _ block sub state _ (.cancelAndWait block)
      (by rw [call_of_userCode huser]; rfl) rfl (by simp) hsub hstate
  | checkWait t => exact waitStep_view .checkWait h
  | wake t => exact waitStep_view .wake h
  | recheck t => exact waitStep_view .recheck h
  | expire block =>
    cases h
    exact .expired block
  | stop t order =>
    simp only [step, Option.ite_none_right_eq_some, Option.some.injEq] at h
    obtain ⟨huser, -, rfl⟩ := h
    exact .stopping t order huser
  | stopCancel t =>
    simp only [step] at h
    split at h
    case h_1 block rest hcall =>
      obtain ⟨_, hbox, rfl⟩ := Option.map_eq_some_iff.mp h
      obtain ⟨sub, state, hsub, hstate, rfl⟩ := onBox_eq_some hbox
      exact .owner t _ _ block sub state _ .stopCancel (by rw [hcall]; rfl) rfl (by simp [hcall])
        hsub hstate
    case h_2 => cases h
  | stopReturn t =>
    simp only [step] at h
    split at h
    case h_1 hcall => cases h; exact .stopReturned t hcall
    case h_2 => cases h
  | startDrain t block =>
    simp only [step] at h
    split at h
    case h_1 hcall hdrain =>
      obtain ⟨_, hbox, rfl⟩ := Option.map_eq_some_iff.mp h
      obtain ⟨sub, state, hsub, hstate, rfl⟩ := onBox_eq_some hbox
      exact .startedDrain t block sub state hcall hdrain hsub hstate
    case h_2 => cases h
  | pop t => exact drainStep_view .pop h
  | callbackEnd t threw => exact drainStep_view (.callbackEnd threw) h
  | finish t => exact drainStep_view .finish h

end BusState
end RobotMiddleware
