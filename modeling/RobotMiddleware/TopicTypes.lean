import RobotMiddleware.TopicRegistry

/-! Type safety of the topics over whole runs: what is recorded for a topic, what a call that
throws leaves behind, which ids are given out, and what reaches a callback. -/
namespace RobotMiddleware

/-- The contract of the first successful registration of a topic. -/
def firstContract {Ty : Type} (registrations : List (Bytes × TypeContract Ty)) (topic : Bytes) :
    Option (TypeContract Ty) :=
  (registrations.find? fun r => r.1 = topic).map Prod.snd

theorem firstContract_append {Ty : Type} (registrations : List (Bytes × TypeContract Ty))
    (topic : Bytes) (contract : TypeContract Ty) (u : Bytes) :
    firstContract (registrations ++ [(topic, contract)]) u =
      (firstContract registrations u).or (if topic = u then some contract else none) := by
  unfold firstContract
  rw [List.find?_append, Option.map_or, List.find?_singleton]
  congr 1
  by_cases htopic : topic = u <;> simp [htopic]

def subscriptionId (block : ℕ) : BitVec 64 := BitVec.ofNat 64 (block + 1)

theorem subscriptionId_succ (block : ℕ) :
    subscriptionId block + 1 = subscriptionId (block + 1) :=
  (BitVec.ofNat_add (block + 1) 1).symm

/-- The first 2^64 ids are different. -/
theorem subscriptionId_inj {block other : ℕ} (hblock : block < 2 ^ 64) (hother : other < 2 ^ 64)
    (h : subscriptionId block = subscriptionId other) : block = other := by
  have hvalue : (block + 1) % 2 ^ 64 = (other + 1) % 2 ^ 64 := by
    have hvalue := congrArg BitVec.toNat h
    simpa only [subscriptionId, BitVec.toNat_ofNat] using hvalue
  omega

namespace BusState
variable {Tid Ty : Type} {Val : Ty → Type} [DecidableEq Tid]

/-- What is recorded for a topic is its first registration, what a mailbox accepted was
published with the contract of its subscription, and ids count upwards. -/
structure TypeInvariant (s : BusState Tid Val) : Prop where
  recorded : ∀ topic, s.bus.contractOf topic = firstContract s.history.registrations topic
  accepted : ∀ block sub, s.boxes block = some sub → ∀ p ∈ sub.state.history.accepted,
    p.topic = sub.topic ∧ p.contract = sub.contract
  nextId : s.bus.nextSubscriptionId = subscriptionId s.history.created
  ids : s.history.ids = (List.range s.history.created).map subscriptionId

namespace TypeInvariant
variable {s s' : BusState Tid Val}

omit [DecidableEq Tid] in
theorem initial : TypeInvariant ({} : BusState Tid Val) := by
  refine ⟨fun _ => rfl, ?_, rfl, rfl⟩
  rintro block sub ⟨⟩

omit [DecidableEq Tid] in
/-- A registration is the first one exactly if nothing was recorded. -/
theorem recorded_append (h : TypeInvariant s) {topic : Bytes} {contract : TypeContract Ty}
    {bus : TopicBus Ty} (hregisters : s.bus.Registers topic contract bus) (u : Bytes) :
    bus.contractOf u = firstContract (s.history.registrations ++ [(topic, contract)]) u := by
  rw [hregisters.contractOf, firstContract_append, ← h.recorded]
  by_cases hu : u = topic
  · subst hu
    rcases hregisters.agrees with hnone | hsame
    · simp [hnone]
    · simp [hsame]
  · simp [hu, Ne.symm hu]

theorem step (hregistry : RegistryInvariant s) (h : TypeInvariant s) (hs : FlowView s s') :
    TypeInvariant s' := by
  have hkept (hk : Kept s s') : TypeInvariant s' := by
    refine ⟨fun topic => ?_, fun block sub hsub => ?_, ?_, ?_⟩
    · rw [hk.contracts, hk.registrations]
      exact h.recorded topic
    · rcases hk.boxes block with hbox | ⟨old, state, act, hold, hstate, hbox, haccepted⟩
      · exact h.accepted block sub (hbox.symm.trans hsub)
      · cases hbox.symm.trans hsub
        rw [haccepted]
        exact h.accepted block old hold
    · rw [hk.nextId, hk.created]
      exact h.nextId
    · rw [hk.ids, hk.created]
      exact h.ids
  cases hs with
  | advertised topic contract bus returns hregisters =>
    exact ⟨h.recorded_append hregisters, h.accepted,
      hregisters.nextSubscriptionId.trans h.nextId, h.ids⟩
  | subscribed topic contract options bus block returns hregisters hcreate =>
    have hid : bus.nextSubscriptionId = subscriptionId s.history.created :=
      hregisters.nextSubscriptionId.trans h.nextId
    refine ⟨fun u => ?_, fun number sub hsub => ?_, ?_, ?_⟩
    · rw [TopicBus.contractOf_addSubscription]
      exact h.recorded_append hregisters u
    · by_cases hnumber : number = s.history.created
      · subst hnumber
        simp only [Function.update_self, Option.some.injEq] at hsub
        subst hsub
        simp
      · simp only [ne_eq, hnumber, not_false_eq_true, Function.update_of_ne] at hsub
        exact h.accepted number sub hsub
    · rw [TopicBus.addSubscription_nextSubscriptionId, hid]
      exact subscriptionId_succ _
    · rw [List.range_succ, List.map_append, ← h.ids, hid, List.map_singleton]
  | snapshot t p record order result hcall hrecord hcontract hnumber hpublisher horder =>
    exact ⟨fun u => (TopicBus.contractOf_emplace_of_lookup hrecord _ u).trans (h.recorded u),
      h.accepted, h.nextId, h.ids⟩
  | locked t c hcall hfree => exact ⟨h.recorded, h.accepted, h.nextId, h.ids⟩
  | enqueued t p block rest sub state call outcomes hcall hnext hsub hstate =>
    refine ⟨h.recorded, fun number other hother => ?_, h.nextId, h.ids⟩
    by_cases hnumber : number = block
    · subst hnumber
      simp only [setCall, setBox, Function.update_self, Option.some.injEq] at hother
      subst hother
      -- the publication comes from a `publish` whose snapshot has this block
      obtain ⟨-, hblocks⟩ := hregistry.fanout t _ hcall
      obtain ⟨sub', hsub', htopic, hcontract⟩ := hblocks number (List.mem_cons_self ..)
      cases hsub.symm.trans hsub'
      obtain ⟨r, -, -, hhistory⟩ := MailboxState.enqueue_spec hstate
      intro q hq
      rw [hhistory] at hq
      have hold := h.accepted number sub hsub
      split at hq
      case isTrue =>
        rcases List.mem_append.mp hq with hq | hq
        · exact hold q hq
        · cases List.mem_singleton.mp hq
          exact ⟨htopic.symm, hcontract.symm⟩
      case isFalse => exact hold q hq
    · simp only [setCall, setBox, ne_eq, hnumber, not_false_eq_true, Function.update_of_ne]
        at hother
      exact h.accepted number other hother
  | released t p rest s' hcall hk => exact hkept hk
  | quiet s' hk => exact hkept hk

end TypeInvariant

variable [DecidableEq Ty] {s s' : BusState Tid Val}

theorem typeInvariant_of_reachable (h : (busSystem Tid Val).Reachable s) : TypeInvariant s := by
  refine TransitionSystem.Reachable.invariant ?_ (fun s a s' hr hs hstep =>
    hs.step (registryInvariant_of_reachable hr) (step_flow hstep)) h
  rintro s rfl
  exact .initial

/-- No step takes back a contract. -/
theorem contractOf_step {a : BusAction Tid Val} (h : s.step a = some s') {topic : Bytes}
    {contract : TypeContract Ty} (hcontract : s.bus.contractOf topic = some contract) :
    s'.bus.contractOf topic = some contract := by
  cases step_flow h with
  | advertised topic contract bus returns hregisters => exact hregisters.contractOf_mono _ _ hcontract
  | subscribed topic contract options bus block returns hregisters hcreate =>
    rw [TopicBus.contractOf_addSubscription]
    exact hregisters.contractOf_mono _ _ hcontract
  | snapshot t p record order result hcall hrecord =>
    exact (TopicBus.contractOf_emplace_of_lookup hrecord _ _).trans hcontract
  | locked => exact hcontract
  | enqueued => exact hcontract
  | released t p rest s' hcall hk => exact (hk.contracts _).trans hcontract
  | quiet s' hk => exact (hk.contracts _).trans hcontract

theorem contractOf_run {actions : List (BusAction Tid Val)}
    (h : (busSystem Tid Val).run s actions = some s') {topic : Bytes} {contract : TypeContract Ty}
    (hcontract : s.bus.contractOf topic = some contract) :
    s'.bus.contractOf topic = some contract := by
  induction actions generalizing s with
  | nil =>
    cases h
    exact hcontract
  | cons a actions ih =>
    obtain ⟨next, hnext, hrest⟩ := Option.bind_eq_some_iff.mp h
    exact ih hrest (contractOf_step hnext hcontract)

/-- Only a call that threw in its locked section, or before it, reports an error. -/
theorem unchanged_of_threw {a : BusAction Tid Val} (h : s.step a = some s') {t : Tid}
    {e : MiddlewareError} (hthrew : s'.history.returns = s.history.returns ++ [(t, .error e)]) :
    s'.bus = s.bus ∧ s'.expired = s.expired ∧ s'.boxes = s.boxes := by
  cases step_view h with
  | threw u a publishes e' huser hregistry hactor hle => exact ⟨rfl, rfl, rfl⟩
  | advertised | subscribed | cleanedThrew | unlocked | stopReturned =>
    simp [addReturn, finishPublish, setCall, setBox] at hthrew
  | _ => simp [delivered, setCall, setDrain, setBox] at hthrew

/-- A message in a callback was published with the contract of the subscription, and the cast
in the wrapper is to the type of the message. -/
theorem delivered_of_reachable (h : (busSystem Tid Val).Reachable s) {block : ℕ}
    {sub : BusSubscription Tid Val} (hsub : s.boxes block = some sub)
    {p : Publication Tid Val} (hp : p ∈ sub.state.history.started) :
    p.contract = sub.contract ∧ ∃ value, p.message = ⟨sub.contract.localType, value⟩ ∧
      staticPointerCast sub.contract.localType p.message = some value := by
  have hregistry := registryInvariant_of_reachable h
  have horder := MailboxState.orderInvariant_of_reachable (hregistry.reachable block sub hsub)
  have haccepted := (typeInvariant_of_reachable h).accepted block sub hsub p
    (horder.started_sublist.subset hp)
  have hcontract : p.contract = sub.contract := haccepted.2
  have htype : p.message.1 = sub.contract.localType := congrArg TypeContract.localType hcontract
  rcases hmessage : p.message with ⟨τ, value⟩
  rw [hmessage] at htype
  subst htype
  exact ⟨hcontract, value, rfl, by simp [staticPointerCast]⟩

structure TypeSafety (s : BusState Tid Val) : Prop where
  recorded : ∀ topic, s.bus.contractOf topic = firstContract s.history.registrations topic
  permanent : ∀ topic contract actions s', s.bus.contractOf topic = some contract →
    (busSystem Tid Val).run s actions = some s' → s'.bus.contractOf topic = some contract
  /-- A call that throws leaves the records, the subscriptions and the next id alone. -/
  throwing : ∀ a s' t e, s.step a = some s' →
    s'.history.returns = s.history.returns ++ [(t, .error e)] →
    s'.bus = s.bus ∧ s'.expired = s.expired ∧ s'.boxes = s.boxes
  ids_nodup : s.history.ids.length ≤ 2 ^ 64 → s.history.ids.Nodup
  /-- A message in a callback was published with the contract of the subscription, and the
  cast in the wrapper is to the type of the message. -/
  delivered : ∀ block sub, s.boxes block = some sub → ∀ p ∈ sub.state.history.started,
    p.contract = sub.contract ∧ ∃ value, p.message = ⟨sub.contract.localType, value⟩ ∧
      staticPointerCast sub.contract.localType p.message = some value

/-- Topic type safety, for every history of calls. -/
theorem topic_type_safety (h : (busSystem Tid Val).Reachable s) : TypeSafety s := by
  have htypes := typeInvariant_of_reachable h
  refine ⟨htypes.recorded, fun _ _ _ _ hcontract hrun => contractOf_run hrun hcontract,
    fun _ _ _ _ hstep hthrew => unchanged_of_threw hstep hthrew, fun hfew => ?_,
    fun block sub hsub p hp => delivered_of_reachable h hsub hp⟩
  rw [htypes.ids, List.length_map, List.length_range] at hfew
  rw [htypes.ids]
  refine List.nodup_range.map_on fun block hblock other hother heq => ?_
  exact subscriptionId_inj ((List.mem_range.mp hblock).trans_le hfew)
    ((List.mem_range.mp hother).trans_le hfew) heq

/-- A message in a callback, after a subscription with another schema has thrown. -/
theorem topic_type_safety_conflict : ∃ s : BusState (Fin 3) fun _ : Fin 2 => ℕ,
    s.history.returns.length = 4 ∧
    (s.boxes 0).map (fun sub => sub.state.history.started.map Publication.call) = some [0] ∧
    TypeSafety s := by
  obtain ⟨s, hs, hp⟩ := (busSystem (Fin 3) fun _ : Fin 2 => ℕ).exists_reachable_of_run {}
    [.advertise 0 [1] ⟨7, 9, 0⟩, .subscribe 0 [1] ⟨7, 9, 0⟩ {} true,
      .subscribe 0 [1] ⟨7, 8, 0⟩ {} true, .publish 1 [1] 7 9 ⟨0, 42⟩ false [0], .lockDispatch 1,
      .enqueue 1, .post 1 .accepted, .unlockDispatch 1, .startDrain 2 0, .pop 2]
    (fun s => s.history.returns.length == 4 &&
      (s.boxes 0).map (fun sub => sub.state.history.started.map Publication.call) == some [0])
    rfl (by decide)
  simp only [Bool.and_eq_true, beq_iff_eq] at hp
  exact ⟨s, hp.1, hp.2, topic_type_safety hs⟩

/-- Any number of subscriptions can be created one after the other. -/
theorem exists_reachable_created (count : ℕ) : ∃ s : BusState (Fin 1) fun _ : Fin 1 => ℕ,
    (busSystem (Fin 1) fun _ : Fin 1 => ℕ).Reachable s ∧ s.history.created = count ∧
    s.threads 0 = {} ∧ s.bus.accepting = true ∧
    ∀ contract, s.bus.contractOf [1] = some contract → contract = ⟨7, 9, 0⟩ := by
  induction count with
  | zero =>
    refine ⟨{}, .init rfl, rfl, rfl, rfl, fun contract hcontract => ?_⟩
    simp [TopicBus.contractOf] at hcontract
  | succ count ih =>
    obtain ⟨s, hs, hcreated, hidle, haccepting, hcontract⟩ := ih
    have hcreate : SubscriptionControlBlock.create {} true =
        .ok ({ options := {}, queueDepth_pos := by decide } :
          SubscriptionControlBlock (Fin 1) (Publication (Fin 1) fun _ : Fin 1 => ℕ)) := rfl
    obtain ⟨bus, hregisters, hrun⟩ := TopicBus.run_subscribe (b := s.bus) s.history.created
      (List.cons_ne_nil 1 []) hcreate haccepting
      fun record hrecord => hcontract _ (TopicBus.contractOf_of_lookup hrecord)
    have huser : s.userCode 0 = true := by simp only [userCode, hidle]
    have hstep : ∃ s', s.step (.subscribe 0 [1] ⟨7, 9, 0⟩ {} true) = some s' ∧
        s'.history.created = s.history.created + 1 ∧ s'.threads = s.threads ∧
        s'.bus = { bus with nextSubscriptionId := bus.nextSubscriptionId + 1 }.addSubscription [1]
          bus.nextSubscriptionId s.history.created := by
      simp only [step, huser, hrun, ↓reduceIte, Option.some.injEq, exists_eq_left']
      exact ⟨rfl, rfl, rfl⟩
    obtain ⟨s', hstep, hcount, hthreads, hbus⟩ := hstep
    refine ⟨s', hs.step (a := .subscribe 0 [1] ⟨7, 9, 0⟩ {} true) hstep,
      by rw [hcount, hcreated], by rw [hthreads, hidle], ?_, ?_⟩
    · rw [hbus, TopicBus.addSubscription_accepting]
      exact hregisters.accepting.trans haccepting
    · intro contract hnew
      rw [hbus, TopicBus.contractOf_addSubscription] at hnew
      have hrecorded := hregisters.contractOf [1]
      rw [if_pos rfl] at hrecorded
      cases hrecorded.symm.trans hnew
      rfl

/-- The counter wraps: id 1 is given out again after 2^64 subscriptions. -/
theorem subscription_id_reused : ¬ ∀ s : BusState (Fin 1) fun _ : Fin 1 => ℕ,
    (busSystem (Fin 1) fun _ : Fin 1 => ℕ).Reachable s → s.history.ids.Nodup := by
  intro hall
  obtain ⟨s, hs, hcreated, -⟩ := exists_reachable_created (2 ^ 64 + 1)
  have hnodup := hall s hs
  rw [(typeInvariant_of_reachable hs).ids, hcreated] at hnodup
  have hfirst : 0 ∈ List.range (2 ^ 64 + 1) := List.mem_range.mpr (by omega)
  have hlast : 2 ^ 64 ∈ List.range (2 ^ 64 + 1) := List.mem_range.mpr (by omega)
  have hsame : subscriptionId 0 = subscriptionId (2 ^ 64) := by
    apply BitVec.eq_of_toNat_eq
    simp only [subscriptionId, BitVec.toNat_ofNat]
    omega
  have heq := List.inj_on_of_nodup_map hnodup hfirst hlast hsame
  omega

end BusState
end RobotMiddleware
