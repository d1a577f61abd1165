import RobotMiddleware.CommonOrder
import RobotMiddleware.TopicRegistry

/-! One order of the publications of a topic for all its subscriptions: the order in which
the `publish` calls get the dispatch mutex of the topic. -/
namespace RobotMiddleware
namespace BusState
variable {Tid Ty : Type} {Val : Ty → Type} {s s' : BusState Tid Val}

/-- The publications of a topic in the order in which their calls got its dispatch mutex. -/
def dispatchOrder (s : BusState Tid Val) (topic : Bytes) : List (Publication Tid Val) :=
  s.history.dispatched.filter fun p => p.topic = topic

theorem dispatchOrder_append {p : Publication Tid Val}
    (h : s'.history.dispatched = s.history.dispatched ++ [p]) (topic : Bytes) :
    s'.dispatchOrder topic = s.dispatchOrder topic ++ if p.topic = topic then [p] else [] := by
  unfold dispatchOrder
  rw [h, List.filter_append, List.filter_singleton]
  by_cases htopic : p.topic = topic <;> simp [htopic]

theorem dispatchOrder_congr (h : s'.history.dispatched = s.history.dispatched) (topic : Bytes) :
    s'.dispatchOrder topic = s.dispatchOrder topic := by
  unfold dispatchOrder
  rw [h]

structure DispatchInvariant (s : BusState Tid Val) : Prop where
  mutex : ∀ topic t, s.dispatch topic = some t ↔ ∃ f, (s.threads t).call.fanout = some f ∧
    f.locked = true ∧ f.publication.topic = topic
  numbered : ∀ t f, (s.threads t).call.fanout = some f →
    f.publication.publisher = t ∧ f.publication.call < s.history.publishes
  numbers_inj : ∀ t u f g, (s.threads t).call.fanout = some f → (s.threads u).call.fanout = some g →
    f.publication.call = g.publication.call → t = u
  dispatched_lt : ∀ p ∈ s.history.dispatched, p.call < s.history.publishes
  distinct : (s.history.dispatched.map Publication.call).Nodup
  sorted : s.history.dispatched.Pairwise fun p q => p.publisher = q.publisher → p.call < q.call
  /-- A call that waits for its mutex is new, and later than what its thread published. -/
  waiting : ∀ t f, (s.threads t).call.fanout = some f → f.locked = false →
    ∀ p ∈ s.history.dispatched, p.call ≠ f.publication.call ∧
      (p.publisher = t → p.call < f.publication.call)
  accepted : ∀ block sub, s.boxes block = some sub →
    sub.state.history.accepted.Sublist (s.dispatchOrder sub.topic)
  /-- A call with its mutex is the last of the order, and has not been accepted where it still
  has to be enqueued. -/
  holding : ∀ t f, (s.threads t).call.fanout = some f → f.locked = true →
    ∃ before, s.dispatchOrder f.publication.topic = before ++ [f.publication] ∧
      ∀ block ∈ f.remaining, ∀ sub, s.boxes block = some sub →
        sub.state.history.accepted.Sublist before

namespace DispatchInvariant

theorem initial : DispatchInvariant ({} : BusState Tid Val) := by
  refine ⟨fun topic t => ?_, ?_, ?_, by simp, List.nodup_nil, .nil, ?_, ?_, ?_⟩
  · simp [BusCall.fanout]
  · rintro t f ⟨⟩
  · rintro t u f g ⟨⟩
  · rintro t f ⟨⟩
  · rintro block sub ⟨⟩
  · rintro t f ⟨⟩

/-- Only one thread is between the mutex and its release. -/
theorem holder_unique (h : DispatchInvariant s) {t u : Tid} {f g : Fanout Tid Val}
    (hf : (s.threads t).call.fanout = some f) (hg : (s.threads u).call.fanout = some g)
    (hlocked : f.locked = true) (hlocked' : g.locked = true)
    (htopic : f.publication.topic = g.publication.topic) : t = u := by
  have ht := (h.mutex _ t).mpr ⟨f, hf, hlocked, rfl⟩
  have hu := (h.mutex _ u).mpr ⟨g, hg, hlocked', htopic.symm⟩
  exact Option.some.inj (ht.symm.trans hu)

variable [DecidableEq Tid]

/-- Calls may end, and the mailboxes may move without accepting. -/
theorem kept (h : DispatchInvariant s) (hk : Kept s s')
    (hcalls : ∀ u f, (s'.threads u).call.fanout = some f → (s.threads u).call.fanout = some f)
    (hmutex : ∀ topic t, s'.dispatch topic = some t ↔ ∃ f, (s'.threads t).call.fanout = some f ∧
      f.locked = true ∧ f.publication.topic = topic) : DispatchInvariant s' := by
  have hboxes {block : ℕ} {sub : BusSubscription Tid Val} (hsub : s'.boxes block = some sub) :
      ∃ old, s.boxes block = some old ∧ sub.topic = old.topic ∧
        sub.state.history.accepted = old.state.history.accepted := by
    rcases hk.boxes block with hbox | ⟨old, state, act, hold, -, hbox, haccepted⟩
    · exact ⟨sub, hbox.symm.trans hsub, rfl, rfl⟩
    · cases hbox.symm.trans hsub
      exact ⟨old, hold, rfl, haccepted⟩
  have horder := dispatchOrder_congr hk.dispatched
  refine ⟨hmutex, fun t f hf => ?_, fun t u f g hf hg => ?_, ?_, ?_, ?_, fun t f hf => ?_,
    fun block sub hsub => ?_, fun t f hf hlocked => ?_⟩
  · obtain ⟨hpublisher, hlt⟩ := h.numbered t f (hcalls t f hf)
    exact ⟨hpublisher, hlt.trans_le hk.publishes⟩
  · exact h.numbers_inj t u f g (hcalls t f hf) (hcalls u g hg)
  · rw [hk.dispatched]
    exact fun p hp => (h.dispatched_lt p hp).trans_le hk.publishes
  · rw [hk.dispatched]
    exact h.distinct
  · rw [hk.dispatched]
    exact h.sorted
  · rw [hk.dispatched]
    exact h.waiting t f (hcalls t f hf)
  · obtain ⟨old, hold, htopic, haccepted⟩ := hboxes hsub
    rw [haccepted, htopic, horder]
    exact h.accepted block old hold
  · obtain ⟨before, hbefore, hremaining⟩ := h.holding t f (hcalls t f hf) hlocked
    refine ⟨before, (horder _).trans hbefore, fun block hblock sub hsub => ?_⟩
    obtain ⟨old, hold, -, haccepted⟩ := hboxes hsub
    rw [haccepted]
    exact hremaining block hblock old hold

/-- The snapshot numbers the call, and takes no mutex yet. -/
theorem snapshot (h : DispatchInvariant s) {t : Tid} {p : Publication Tid Val} {order : List ℕ}
    {result : PublishResult} {bus : TopicBus Ty} (hcall : (s.threads t).call = .none)
    (hnumber : p.call = s.history.publishes) (hpublisher : p.publisher = t) :
    DispatchInvariant ({ s with
      bus := bus
      history := { s.history with publishes := s.history.publishes + 1 } }.setCall t
      (.locking ⟨p, order, result⟩)) := by
  have hnone : (s.threads t).call.fanout = none := by rw [hcall]; rfl
  have hfanout {u : Tid} {f : Fanout Tid Val}
      (hf : (({ s with
        bus := bus
        history := { s.history with publishes := s.history.publishes + 1 } }.setCall t
        (.locking ⟨p, order, result⟩)).threads u).call.fanout = some f) :
      u = t ∧ f = ⟨p, order, false⟩ ∨ u ≠ t ∧ (s.threads u).call.fanout = some f := by
    simp only [setCall_threads] at hf
    split at hf
    case isTrue hut =>
      cases hf
      exact .inl ⟨hut, rfl⟩
    case isFalse hut => exact .inr ⟨hut, hf⟩
  refine ⟨fun topic u => ?_, fun u f hf => ?_, fun u v f g hf hg heq => ?_, fun q hq => ?_,
    h.distinct, h.sorted, fun u f hf hlocked q hq => ?_, h.accepted, fun u f hf hlocked => ?_⟩
  · refine (h.mutex topic u).trans (exists_congr fun f => and_congr_left fun hf => ?_)
    simp only [setCall_threads]
    split
    case isTrue hut =>
      rw [hut, hnone]
      simp only [reduceCtorEq, BusCall.fanout, Option.some.injEq, false_iff]
      rintro rfl
      exact absurd hf.1 (by simp)
    case isFalse => rfl
  · rcases hfanout hf with ⟨rfl, rfl⟩ | ⟨-, hf⟩
    · exact ⟨hpublisher, hnumber ▸ Nat.lt_succ_self _⟩
    · obtain ⟨hthread, hlt⟩ := h.numbered u f hf
      exact ⟨hthread, Nat.lt_succ_of_lt hlt⟩
  · -- the new number is larger than every other
    rcases hfanout hf with ⟨hu, rfl⟩ | ⟨-, hf'⟩ <;> rcases hfanout hg with ⟨hv, rfl⟩ | ⟨-, hg'⟩
    · exact hu.trans hv.symm
    · have hlt := (h.numbered v g hg').2
      simp only [hnumber] at heq
      omega
    · have hlt := (h.numbered u f hf').2
      simp only [hnumber] at heq
      omega
    · exact h.numbers_inj u v f g hf' hg' heq
  · exact Nat.lt_succ_of_lt (h.dispatched_lt q hq)
  · rcases hfanout hf with ⟨rfl, rfl⟩ | ⟨-, hf⟩
    · have hlt := h.dispatched_lt q hq
      simp only [hnumber]
      omega
    · exact h.waiting u f hf hlocked q hq
  · rcases hfanout hf with ⟨rfl, rfl⟩ | ⟨-, hf⟩
    · cases hlocked
    · exact h.holding u f hf hlocked

/-- The mutex puts the publication at the end of the order. -/
theorem locked (hregistry : RegistryInvariant s) (h : DispatchInvariant s) {t : Tid}
    {c : PublishCall Tid Val} (hcall : (s.threads t).call = .locking c)
    (hfree : s.dispatch c.publication.topic = none) :
    DispatchInvariant ({ s with
      dispatch := Function.update s.dispatch c.publication.topic (some t)
      history := { s.history with
        dispatched := s.history.dispatched ++ [c.publication] } }.setCall t (.dispatching c)) := by
  generalize hs' : BusState.setCall _ t _ = s'
  have hself : (s.threads t).call.fanout = some ⟨c.publication, c.remaining, false⟩ := by
    rw [hcall]
    rfl
  obtain ⟨hpublisher, hlt⟩ := h.numbered t _ hself
  have hwaiting := h.waiting t _ hself rfl
  have hdispatched : s'.history.dispatched = s.history.dispatched ++ [c.publication] := by
    rw [← hs']
    rfl
  have hdispatch : s'.dispatch = Function.update s.dispatch c.publication.topic (some t) := by
    rw [← hs']
    rfl
  have hboxes : s'.boxes = s.boxes := by rw [← hs']; rfl
  have hpublishes : s'.history.publishes = s.history.publishes := by rw [← hs']; rfl
  have hfanout (u : Tid) : (s'.threads u).call.fanout =
      if u = t then some ⟨c.publication, c.remaining, true⟩ else (s.threads u).call.fanout := by
    rw [← hs', setCall_threads]
    split <;> rfl
  have hother {u : Tid} {f : Fanout Tid Val} (hf : (s.threads u).call.fanout = some f)
      (hlocked : f.locked = true) : f.publication.topic ≠ c.publication.topic := by
    intro htopic
    have hheld := (h.mutex _ u).mpr ⟨f, hf, hlocked, htopic⟩
    rw [hfree] at hheld
    cases hheld
  have hbefore {u : Tid} {f : Fanout Tid Val} (hf : (s'.threads u).call.fanout = some f) :
      ∃ g, (s.threads u).call.fanout = some g ∧ g.publication = f.publication ∧
        (f.locked = false → u ≠ t ∧ g = f) := by
    rw [hfanout] at hf
    split at hf
    case isTrue hut =>
      cases hf
      exact ⟨⟨c.publication, c.remaining, false⟩, hut ▸ hself, rfl, by simp⟩
    case isFalse hut => exact ⟨f, hf, rfl, fun _ => ⟨hut, rfl⟩⟩
  refine ⟨fun topic u => ?_, fun u f hf => ?_, fun u v f g hf hg heq => ?_, fun p hp => ?_,
    ?_, ?_, fun u f hf hlocked p hp => ?_, fun block sub hsub => ?_, fun u f hf hlocked => ?_⟩
  · rw [hdispatch]
    by_cases htopic : topic = c.publication.topic
    · subst htopic
      rw [Function.update_self, Option.some.injEq]
      constructor
      · rintro rfl
        exact ⟨_, by rw [hfanout, if_pos rfl], rfl, rfl⟩
      · rintro ⟨f, hf, hlocked, htopic⟩
        rw [hfanout] at hf
        split at hf
        case isTrue hut => exact hut.symm
        case isFalse => exact absurd htopic (hother hf hlocked)
    · rw [Function.update_of_ne htopic]
      refine (h.mutex topic u).trans (exists_congr fun f => and_congr_left fun hf => ?_)
      rw [hfanout]
      split
      case isTrue hut =>
        rw [hut, hself]
        constructor
        · rintro ⟨⟩
          cases hf.1
        · rintro ⟨⟩
          exact absurd hf.2.symm htopic
      case isFalse => rfl
  · obtain ⟨g, hg, hpublication, -⟩ := hbefore hf
    rw [← hpublication, hpublishes]
    exact h.numbered u g hg
  · obtain ⟨f', hf', hpublication, -⟩ := hbefore hf
    obtain ⟨g', hg', hpublication', -⟩ := hbefore hg
    rw [← hpublication, ← hpublication'] at heq
    exact h.numbers_inj u v f' g' hf' hg' heq
  · rw [hdispatched] at hp
    rw [hpublishes]
    rcases List.mem_append.mp hp with hp | hp
    · exact h.dispatched_lt p hp
    · rw [List.mem_singleton.mp hp]
      exact hlt
  · rw [hdispatched, List.map_append]
    refine h.distinct.append (List.nodup_singleton _) ?_
    rw [List.map_singleton, List.disjoint_singleton]
    intro hmem
    obtain ⟨p, hp, hcall⟩ := List.mem_map.mp hmem
    exact (hwaiting p hp).1 hcall
  · rw [hdispatched]
    refine List.pairwise_append.mpr ⟨h.sorted, List.pairwise_singleton _ _, ?_⟩
    intro p hp q hq hpq
    rw [List.mem_singleton.mp hq] at hpq ⊢
    exact (hwaiting p hp).2 (hpq.trans hpublisher)
  · obtain ⟨g, hg, -, hsame⟩ := hbefore hf
    obtain ⟨hut, rfl⟩ := hsame hlocked
    rw [hdispatched] at hp
    rcases List.mem_append.mp hp with hp | hp
    · exact h.waiting u g hg hlocked p hp
    · rw [List.mem_singleton.mp hp]
      exact ⟨fun heq => hut (h.numbers_inj u t g _ hg hself heq.symm),
        fun hthread => absurd (hthread.symm.trans hpublisher) hut⟩
  · rw [dispatchOrder_append hdispatched]
    rw [hboxes] at hsub
    exact (h.accepted block sub hsub).trans (List.sublist_append_left _ _)
  · rw [dispatchOrder_append hdispatched, hboxes]
    rw [hfanout] at hf
    split at hf
    case isTrue hut =>
      cases hf
      refine ⟨s.dispatchOrder c.publication.topic, by rw [if_pos rfl], fun block hblock sub hsub => ?_⟩
      obtain ⟨sub', hsub', htopic, -⟩ := (hregistry.fanout t _ hself).2 block hblock
      cases hsub.symm.trans hsub'
      exact htopic ▸ h.accepted block sub hsub
    case isFalse =>
      rw [if_neg (hother hf hlocked).symm, List.append_nil]
      exact h.holding u f hf hlocked

/-- The push section appends, to one mailbox, the last of the order. -/
theorem enqueued (hregistry : RegistryInvariant s) (h : DispatchInvariant s) {t : Tid}
    {p : Publication Tid Val} {block : ℕ} {rest : List ℕ} {sub : BusSubscription Tid Val}
    {state : MailboxState Tid (Publication Tid Val)} {call : BusCall Tid Val}
    {outcomes : List (ℕ × ℕ × DeliveryOutcome)}
    (hcall : (s.threads t).call.fanout = some ⟨p, block :: rest, true⟩)
    (hnext : call.fanout = some ⟨p, rest, true⟩) (hsub : s.boxes block = some sub)
    (hstate : sub.state.step (.enqueue t p p.isRemote) = some state) :
    DispatchInvariant ({ s.setBox block sub state with
      history := { s.history with outcomes := outcomes } }.setCall t call) := by
  generalize hs' : BusState.setCall _ t _ = s'
  have horder (topic : Bytes) : s'.dispatchOrder topic = s.dispatchOrder topic := by
    apply dispatchOrder_congr
    rw [← hs']
    rfl
  have hdispatch : s'.dispatch = s.dispatch := by rw [← hs']; rfl
  have hdispatched : s'.history.dispatched = s.history.dispatched := by rw [← hs']; rfl
  have hboxes : s'.boxes = Function.update s.boxes block (some { sub with state := state }) := by
    rw [← hs']
    rfl
  have hpublishes : s'.history.publishes = s.history.publishes := by rw [← hs']; rfl
  have hfanout (u : Tid) : (s'.threads u).call.fanout =
      if u = t then some ⟨p, rest, true⟩ else (s.threads u).call.fanout := by
    rw [← hs', setCall_threads]
    split
    case isTrue => exact hnext
    case isFalse => rfl
  have hbefore {u : Tid} {f : Fanout Tid Val} (hf : (s'.threads u).call.fanout = some f) :
      ∃ g, (s.threads u).call.fanout = some g ∧ g.publication = f.publication ∧
        g.locked = f.locked := by
    rw [hfanout] at hf
    split at hf
    case isTrue hut =>
      cases hf
      exact ⟨⟨p, block :: rest, true⟩, hut ▸ hcall, rfl, rfl⟩
    case isFalse => exact ⟨f, hf, rfl, rfl⟩
  obtain ⟨before, hlast, hremaining⟩ := h.holding t _ hcall rfl
  obtain ⟨hnodup, hregistered⟩ := hregistry.fanout t _ hcall
  have htopic : sub.topic = p.topic := by
    obtain ⟨sub', hsub', htopic, -⟩ := hregistered block (List.mem_cons_self ..)
    cases hsub.symm.trans hsub'
    exact htopic
  refine ⟨fun topic u => ?_, fun u f hf => ?_, fun u v f g hf hg heq => ?_, ?_, ?_, ?_,
    fun u f hf hlocked => ?_, fun number other hother => ?_, fun u f hf hlocked => ?_⟩
  · rw [hdispatch, h.mutex]
    constructor
    · rintro ⟨f, hf, hlocked, hf'⟩
      by_cases hut : u = t
      · subst hut
        cases hcall.symm.trans hf
        exact ⟨⟨p, rest, true⟩, by rw [hfanout, if_pos rfl], rfl, hf'⟩
      · exact ⟨f, by rw [hfanout, if_neg hut, hf], hlocked, hf'⟩
    · rintro ⟨f, hf, hlocked, hf'⟩
      obtain ⟨g, hg, hpublication, hsame⟩ := hbefore hf
      exact ⟨g, hg, hsame.trans hlocked, by rw [hpublication, hf']⟩
  · obtain ⟨g, hg, hpublication, -⟩ := hbefore hf
    rw [← hpublication, hpublishes]
    exact h.numbered u g hg
  · obtain ⟨f', hf', hpublication, -⟩ := hbefore hf
    obtain ⟨g', hg', hpublication', -⟩ := hbefore hg
    rw [← hpublication, ← hpublication'] at heq
    exact h.numbers_inj u v f' g' hf' hg' heq
  · rw [hdispatched, hpublishes]
    exact h.dispatched_lt
  · rw [hdispatched]
    exact h.distinct
  · rw [hdispatched]
    exact h.sorted
  · obtain ⟨g, hg, hpublication, hsame⟩ := hbefore hf
    rw [hdispatched, ← hpublication]
    exact h.waiting u g hg (hsame.trans hlocked)
  · rw [horder]
    rw [hboxes] at hother
    by_cases hnumber : number = block
    · subst hnumber
      rw [Function.update_self, Option.some.injEq] at hother
      subst hother
      obtain ⟨r, -, -, hhistory⟩ := MailboxState.enqueue_spec hstate
      rw [hhistory]
      split
      case isTrue =>
        rw [htopic, hlast]
        exact (hremaining number (List.mem_cons_self ..) sub hsub).append (.refl _)
      case isFalse => exact h.accepted number sub hsub
    · rw [Function.update_of_ne hnumber] at hother
      exact h.accepted number other hother
  · rw [horder, hboxes]
    rw [hfanout] at hf
    split at hf
    case isTrue hut =>
      cases hf
      refine ⟨before, hlast, fun number hmem other hother => ?_⟩
      have hnumber : number ≠ block := by
        rintro rfl
        exact (List.nodup_cons.mp hnodup).1 hmem
      rw [Function.update_of_ne hnumber] at hother
      exact hremaining number (List.mem_cons_of_mem _ hmem) other hother
    case isFalse hut =>
      obtain ⟨before', hlast', hremaining'⟩ := h.holding u f hf hlocked
      refine ⟨before', hlast', fun number hmem other hother => ?_⟩
      have hnumber : number ≠ block := by
        -- the block belongs to one topic only, whose mutex `t` has
        rintro rfl
        obtain ⟨sub', hsub', htopic', -⟩ := (hregistry.fanout u f hf).2 number hmem
        cases hsub.symm.trans hsub'
        exact hut (h.holder_unique hf hcall hlocked rfl (htopic'.symm.trans htopic))
      rw [Function.update_of_ne hnumber] at hother
      exact hremaining' number hmem other hother

theorem step (hregistry : RegistryInvariant s) (h : DispatchInvariant s) (hs : FlowView s s') :
    DispatchInvariant s' := by
  cases hs with
  | advertised topic contract bus returns hregisters => exact ⟨h.mutex, h.numbered,
      h.numbers_inj, h.dispatched_lt, h.distinct, h.sorted, h.waiting, h.accepted, h.holding⟩
  | subscribed topic contract options bus block returns hregisters hcreate =>
    have hnew {number : ℕ} {sub : BusSubscription Tid Val} {accepted : List (Publication Tid Val)}
        (hsub : Function.update s.boxes s.history.created (some {
          topic := topic, contract := contract, options := options
          id := bus.nextSubscriptionId, state := { block := block } }) number = some sub)
        (hold : s.boxes number = some sub → sub.state.history.accepted.Sublist accepted) :
        sub.state.history.accepted.Sublist accepted := by
      by_cases hnumber : number = s.history.created
      · subst hnumber
        rw [Function.update_self, Option.some.injEq] at hsub
        subst hsub
        exact List.nil_sublist _
      · rw [Function.update_of_ne hnumber] at hsub
        exact hold hsub
    refine ⟨h.mutex, h.numbered, h.numbers_inj, h.dispatched_lt, h.distinct, h.sorted, h.waiting,
      fun number sub hsub => hnew hsub (h.accepted number sub), fun t f hf hlocked => ?_⟩
    obtain ⟨before, hlast, hremaining⟩ := h.holding t f hf hlocked
    exact ⟨before, hlast, fun number hmem sub hsub => hnew hsub (hremaining number hmem sub)⟩
  | snapshot t p record order result hcall hrecord hcontract hnumber hpublisher horder =>
    exact h.snapshot hcall hnumber hpublisher
  | locked t c hcall hfree => exact h.locked hregistry hcall hfree
  | enqueued t p block rest sub state call outcomes hcall hnext hsub hstate =>
    exact h.enqueued hregistry hcall hnext hsub hstate
  | released t p rest s' hcall hk hdispatch hcalls =>
    have hold {u : Tid} {f : Fanout Tid Val} (hf : (s'.threads u).call.fanout = some f) :
        u ≠ t ∧ (s.threads u).call.fanout = some f := by
      rw [hcalls] at hf
      split at hf
      case isTrue => cases hf
      case isFalse hut => exact ⟨hut, hf⟩
    refine h.kept hk (fun u f hf => (hold hf).2) fun topic u => ?_
    rw [hdispatch]
    by_cases htopic : topic = p.topic
    · rw [htopic, Function.update_self]
      refine ⟨by rintro ⟨⟩, ?_⟩
      rintro ⟨f, hf, hlocked, hf'⟩
      obtain ⟨hut, hf⟩ := hold hf
      exact absurd (h.holder_unique hf hcall hlocked rfl hf') hut
    · rw [Function.update_of_ne htopic, h.mutex]
      constructor
      · rintro ⟨f, hf, hlocked, hf'⟩
        have hut : u ≠ t := by
          rintro rfl
          cases hcall.symm.trans hf
          exact htopic hf'.symm
        exact ⟨f, by rw [hcalls, if_neg hut, hf], hlocked, hf'⟩
      · rintro ⟨f, hf, hlocked, hf'⟩
        exact ⟨f, (hold hf).2, hlocked, hf'⟩
  | quiet s' hk hdispatch hcalls =>
    refine h.kept hk (fun u f hf => (hcalls u).symm.trans hf) fun topic u => ?_
    rw [hdispatch, h.mutex, hcalls]

end DispatchInvariant

variable [DecidableEq Tid] [DecidableEq Ty]

theorem dispatchInvariant_of_reachable (h : (busSystem Tid Val).Reachable s) :
    DispatchInvariant s := by
  refine TransitionSystem.Reachable.invariant ?_ (fun s a s' hr hs hstep =>
    hs.step (registryInvariant_of_reachable hr) (step_flow hstep)) h
  rintro s rfl
  exact .initial

/-- The order of a topic only grows, at its end. -/
theorem dispatchOrder_run {actions : List (BusAction Tid Val)}
    (h : (busSystem Tid Val).run s actions = some s') (topic : Bytes) :
    s.dispatchOrder topic <+: s'.dispatchOrder topic := by
  induction actions generalizing s with
  | nil =>
    cases h
    exact List.prefix_rfl
  | cons a actions ih =>
    obtain ⟨next, hnext, hrest⟩ := Option.bind_eq_some_iff.mp h
    refine List.IsPrefix.trans ?_ (ih hrest)
    cases step_flow hnext with
    | locked t c hcall hfree =>
      exact ⟨_, (List.filter_append s.history.dispatched [c.publication]).symm⟩
    | released t p rest s' hcall hk => rw [dispatchOrder_congr hk.dispatched]
    | quiet s' hk => rw [dispatchOrder_congr hk.dispatched]
    | _ => exact List.prefix_rfl

open CommonOrder in
structure OrderAgreement (s : BusState Tid Val) : Prop where
  /-- Each `publish` call has one place. -/
  order_nodup : ∀ topic, ((s.dispatchOrder topic).map Publication.call).Nodup
  order_grows : ∀ topic actions s', (busSystem Tid Val).run s actions = some s' →
    s.dispatchOrder topic <+: s'.dispatchOrder topic
  /-- The callbacks of a subscription are started in the order of its topic. -/
  started_sublist : ∀ block sub, s.boxes block = some sub →
    sub.state.history.started.Sublist (s.dispatchOrder sub.topic)
  agree : ∀ block other sub sub', s.boxes block = some sub → s.boxes other = some sub' →
    sub.topic = sub'.topic → ∀ p q, Before sub.state.history.started p q →
    p ∈ sub'.state.history.started → q ∈ sub'.state.history.started →
    Before sub'.state.history.started p q
  /-- The messages of one publisher arrive in the order of its calls. -/
  publisher_order : ∀ block sub, s.boxes block = some sub →
    sub.state.history.started.Pairwise fun p q => p.publisher = q.publisher → p.call < q.call

/-- Agreement on order across subscribers, for every interleaving. -/
theorem subscribers_agree_on_order (h : (busSystem Tid Val).Reachable s) : OrderAgreement s := by
  have hregistry := registryInvariant_of_reachable h
  have hdispatch := dispatchInvariant_of_reachable h
  have hnodup (topic : Bytes) : ((s.dispatchOrder topic).map Publication.call).Nodup :=
    hdispatch.distinct.sublist (List.filter_sublist.map Publication.call)
  have hstarted (block : ℕ) (sub : BusSubscription Tid Val) (hsub : s.boxes block = some sub) :
      sub.state.history.started.Sublist (s.dispatchOrder sub.topic) := by
    have horder := MailboxState.orderInvariant_of_reachable (hregistry.reachable block sub hsub)
    exact horder.started_sublist.trans (hdispatch.accepted block sub hsub)
  refine ⟨hnodup, fun topic actions s' hrun => dispatchOrder_run hrun topic, hstarted,
    fun block other sub sub' hsub hsub' htopic p q hbefore hp hq => ?_, fun block sub hsub => ?_⟩
  · have hother := hstarted other sub' hsub'
    rw [← htopic] at hother
    exact hbefore.agree ((hnodup sub.topic).of_map) (hstarted block sub hsub) hother hp hq
  · exact (hdispatch.sorted.sublist List.filter_sublist).sublist (hstarted block sub hsub)

/-- Two publishers and two subscriptions, one of which takes the messages late. -/
theorem subscribers_agree_on_order_two : ∃ s : BusState (Fin 4) fun _ : Fin 1 => ℕ,
    (s.dispatchOrder [1]).map Publication.publisher = [1, 0] ∧
    (∀ block ∈ [0, 1],
      (s.boxes block).map (fun sub => sub.state.history.started.map Publication.publisher) =
        some [1, 0]) ∧
    OrderAgreement s := by
  obtain ⟨s, hs, hp⟩ := (busSystem (Fin 4) fun _ : Fin 1 => ℕ).exists_reachable_of_run {}
    [.subscribe 0 [1] ⟨7, 9, 0⟩ {} true, .subscribe 1 [1] ⟨7, 9, 0⟩ {} true,
      .publish 0 [1] 7 9 ⟨0, 40⟩ false [0, 1], .publish 1 [1] 7 9 ⟨0, 41⟩ false [1, 0],
      .lockDispatch 1, .enqueue 1, .post 1 .accepted, .enqueue 1, .post 1 .accepted,
      .unlockDispatch 1, .lockDispatch 0, .startDrain 2 0, .pop 2, .enqueue 0, .enqueue 0,
      .unlockDispatch 0, .callbackEnd 2 false, .finish 2, .pop 2, .startDrain 3 1, .pop 3,
      .callbackEnd 3 false, .finish 3, .pop 3]
    (fun s => (s.dispatchOrder [1]).map Publication.publisher == [1, 0] &&
      [0, 1].all fun block =>
        (s.boxes block).map (fun sub => sub.state.history.started.map Publication.publisher) ==
          some [1, 0])
    rfl (by decide)
  simp only [Bool.and_eq_true, beq_iff_eq, List.all_eq_true] at hp
  exact ⟨s, hp.1, hp.2, subscribers_agree_on_order hs⟩

end BusState
end RobotMiddleware
