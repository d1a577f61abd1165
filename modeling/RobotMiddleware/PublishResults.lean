import RobotMiddleware.TopicMailboxes

/-! What a `publish` call tells its caller, beside a record of what happened to its message in
every mailbox that its snapshot matched. -/
namespace RobotMiddleware

/-- Why a message left a mailbox without a callback: the push of another call displaced it, its
subscription was cancelled, or the post of a call failed. A message that left in any other way is
`lost`. -/
inductive Removal
  | displaced (call : ℕ)
  | cancelled
  | postFailed (call : ℕ)
  | lost
  deriving DecidableEq

/-- The blocks that each call matched, the enqueues that found an inactive block or were filtered
as remote, by call and block, what was removed from which block, and the results. -/
structure DeliveryLog (Tid : Type) {Ty : Type} (Val : Ty → Type) where
  matched : ℕ → List ℕ := fun _ => []
  passedOver : List (ℕ × ℕ) := []
  removed : List (ℕ × Removal × Publication Tid Val) := []
  results : List (ℕ × PublishResult) := []

def BusAction.postReturns {Tid Ty : Type} {Val : Ty → Type} : BusAction Tid Val → Bool
  | .post _ .threw => false
  | _ => true

namespace BusState
variable {Tid Ty : Type} {Val : Ty → Type}

def outcomesOf (s : BusState Tid Val) (call : ℕ) : List (ℕ × DeliveryOutcome) :=
  s.history.outcomes.filterMap fun entry => if entry.1 = call then some entry.2 else none

/-- What a section of the code means by taking a message of `sub` out of its mailbox. -/
def removal (s : BusState Tid Val) (sub : BusSubscription Tid Val) : BusAction Tid Val → Removal
  | .enqueue t =>
    match (s.threads t).call with
    | .dispatching c =>
      -- only a full mailbox that drops its oldest message makes room
      if sub.options.overflowPolicy = .dropOldest ∧
          sub.options.queueDepth ≤ sub.state.block.pending.length then
        .displaced c.publication.call
      else .lost
    | _ => .lost
  | .cleanup t =>
    match (s.threads t).call with
    | .enqueueing c _ => .postFailed c.publication.call
    | _ => .lost
  | .cancel _ _ | .cancelAndWait _ _ | .stopCancel _ => .cancelled
  -- the drain of a mailbox that is still active starts callbacks
  | .pop _ => if sub.state.block.active then .lost else .cancelled
  | _ => .lost

/-- The messages that an action takes out of its mailbox without starting their callbacks. -/
def removedBy (s : BusState Tid Val) (a : BusAction Tid Val) :
    List (ℕ × Removal × Publication Tid Val) :=
  match s.boxAction a with
  | some (block, act) =>
    match s.boxes block with
    | some sub => (sub.state.removed act).map fun p => (block, s.removal sub a, p)
    | none => []
  | none => []

end BusState

namespace DeliveryLog
variable {Tid Ty : Type} {Val : Ty → Type}

def noteMatched (s : BusState Tid Val) (a : BusAction Tid Val) (matched : ℕ → List ℕ) :
    ℕ → List ℕ :=
  match a with
  | .lockDispatch t =>
    match (s.threads t).call with
    | .locking c => Function.update matched c.publication.call c.remaining
    | _ => matched
  | _ => matched

/-- The enqueue that returns before it looks at the depth of the mailbox. -/
def notePassedOver (s : BusState Tid Val) (a : BusAction Tid Val) (passedOver : List (ℕ × ℕ)) :
    List (ℕ × ℕ) :=
  match a with
  | .enqueue t =>
    match (s.threads t).call with
    | .dispatching ⟨p, block :: _, _⟩ =>
      match s.boxes block with
      | some sub =>
        if !sub.state.block.active || p.isRemote && !sub.state.block.options.receiveRemote then
          passedOver ++ [(p.call, block)]
        else passedOver
      | none => passedOver
    | _ => passedOver
  | _ => passedOver

def noteResult (s : BusState Tid Val) (a : BusAction Tid Val)
    (results : List (ℕ × PublishResult)) : List (ℕ × PublishResult) :=
  match a with
  | .unlockDispatch t =>
    match (s.threads t).call with
    | .dispatching ⟨p, [], result⟩ => results ++ [(p.call, result)]
    | _ => results
  | _ => results

def note (s : BusState Tid Val) (a : BusAction Tid Val)
    (log : DeliveryLog Tid Val) : DeliveryLog Tid Val where
  matched := noteMatched s a log.matched
  passedOver := notePassedOver s a log.passedOver
  removed := log.removed ++ s.removedBy a
  results := noteResult s a log.results

def removedOf (log : DeliveryLog Tid Val) (block : ℕ) : List (Removal × Publication Tid Val) :=
  log.removed.filterMap fun entry => if entry.1 = block then some entry.2 else none

end DeliveryLog

def deliverySystem (Tid : Type) {Ty : Type} (Val : Ty → Type) [DecidableEq Tid]
    [DecidableEq Ty] :
    TransitionSystem (BusState Tid Val × DeliveryLog Tid Val) (BusAction Tid Val) :=
  (busSystem Tid Val).recorded {} DeliveryLog.note

/-- What a result counts when its call matched `matched` blocks with these outcomes. -/
def PublishResult.tally (matched : ℕ) (outcomes : List (ℕ × DeliveryOutcome)) : PublishResult :=
  outcomes.foldl (fun result entry => result.add entry.2) { matchedSubscribers := matched }

namespace PublishResult
variable {matched : ℕ} {outcomes : List (ℕ × DeliveryOutcome)}

theorem tally_append (entry : ℕ × DeliveryOutcome) :
    tally matched (outcomes ++ [entry]) = (tally matched outcomes).add entry.2 := by
  rw [tally, List.foldl_append]
  rfl

/-- A field that every outcome raises by its flag counts the outcomes with the flag. -/
theorem tally_field {field : PublishResult → ℕ} {flag : DeliveryOutcome → Bool}
    (hzero : field { matchedSubscribers := matched } = 0)
    (hadd : ∀ result outcome, field (add result outcome) = field result + (flag outcome).toNat) :
    field (tally matched outcomes) = outcomes.countP fun entry => flag entry.2 := by
  induction outcomes using List.reverseRecOn with
  | nil => exact hzero
  | append_singleton outcomes entry ih =>
    rw [tally_append, hadd, ih, List.countP_append, List.countP_singleton]
    cases flag entry.2 <;> rfl

@[simp] theorem tally_matchedSubscribers :
    (tally matched outcomes).matchedSubscribers = matched := by
  induction outcomes using List.reverseRecOn with
  | nil => rfl
  | append_singleton outcomes entry ih => rw [tally_append, add, ih]

end PublishResult

/-- A `publish` call with the blocks that have not answered it yet, and whether it has its
dispatch mutex. -/
def BusCall.progress {Tid Ty : Type} {Val : Ty → Type} :
    BusCall Tid Val → Option (PublishCall Tid Val × Bool)
  | .locking c => some (c, false)
  | .dispatching c => some (c, true)
  | .enqueueing c block => some ({ c with remaining := block :: c.remaining }, true)
  | _ => .none

theorem BusCall.fanout_of_progress {Tid Ty : Type} {Val : Ty → Type} {call : BusCall Tid Val}
    {c : PublishCall Tid Val} {locked : Bool} (h : call.progress = some (c, locked)) :
    ∃ remaining, call.fanout = some ⟨c.publication, remaining, locked⟩ := by
  cases call with
  | locking | dispatching | enqueueing =>
    cases h
    exact ⟨_, rfl⟩
  | _ => cases h

namespace BusState
variable {Tid Ty : Type} {Val : Ty → Type} {s s' : BusState Tid Val} {t : Tid}

def progress (s : BusState Tid Val) (t : Tid) : Option (PublishCall Tid Val × Bool) :=
  (s.threads t).call.progress

theorem outcomesOf_congr (h : s'.history.outcomes = s.history.outcomes) (call : ℕ) :
    s'.outcomesOf call = s.outcomesOf call := by
  rw [outcomesOf, outcomesOf, h]

theorem outcomesOf_append {number block : ℕ} {outcome : DeliveryOutcome}
    (h : s'.history.outcomes = s.history.outcomes ++ [(number, block, outcome)]) (call : ℕ) :
    s'.outcomesOf call = s.outcomesOf call ++ if number = call then [(block, outcome)] else [] := by
  rw [outcomesOf, h, List.filterMap_append]
  congr 1
  by_cases hcall : number = call <;> simp [hcall]

theorem mem_outcomesOf {call block : ℕ} {outcome : DeliveryOutcome} :
    (block, outcome) ∈ s.outcomesOf call ↔ (call, block, outcome) ∈ s.history.outcomes := by
  simp only [outcomesOf, List.mem_filterMap, Option.ite_none_right_eq_some, Option.some.injEq]
  constructor
  · rintro ⟨⟨number, entry⟩, hmem, rfl, rfl⟩
    exact hmem
  · intro hmem
    exact ⟨(call, block, outcome), hmem, rfl, rfl⟩

/-- The numbers of two calls under way differ. -/
theorem call_ne_of_progress (h : DispatchInvariant s) {u : Tid} {c d : PublishCall Tid Val}
    {locked locked' : Bool} (hc : s.progress t = some (c, locked))
    (hd : s.progress u = some (d, locked')) (hut : u ≠ t) :
    c.publication.call ≠ d.publication.call := by
  intro hcall
  obtain ⟨_, hf⟩ := BusCall.fanout_of_progress hc
  obtain ⟨_, hg⟩ := BusCall.fanout_of_progress hd
  exact hut (h.numbers_inj t u _ _ hf hg hcall).symm

theorem call_lt_of_progress (h : DispatchInvariant s) {c : PublishCall Tid Val} {locked : Bool}
    (hc : s.progress t = some (c, locked)) : c.publication.call < s.history.publishes := by
  obtain ⟨_, hf⟩ := BusCall.fanout_of_progress hc
  exact (h.numbered t _ hf).2

end BusState

/-- What a call has counted is what its enqueues have reported: one report from each block that
it matched and has served. -/
structure TallyInvariant {Tid Ty : Type} {Val : Ty → Type}
    (s : BusState Tid Val) (matched : ℕ → List ℕ) (results : List (ℕ × PublishResult)) :
    Prop where
  waiting : ∀ t c, s.progress t = some (c, false) → s.outcomesOf c.publication.call = [] ∧
    c.result = { matchedSubscribers := c.remaining.length }
  serving : ∀ t c, s.progress t = some (c, true) → (matched c.publication.call).Nodup ∧
    matched c.publication.call =
      (s.outcomesOf c.publication.call).map Prod.fst ++ c.remaining ∧
    c.result = PublishResult.tally (matched c.publication.call).length
      (s.outcomesOf c.publication.call)
  fresh : ∀ call, s.history.publishes ≤ call → s.outcomesOf call = []
  reported_nodup : ∀ call, ((s.outcomesOf call).map Prod.fst).Nodup
  results : ∀ call result, (call, result) ∈ results → call < s.history.publishes ∧
    matched call = (s.outcomesOf call).map Prod.fst ∧
    result = PublishResult.tally (matched call).length (s.outcomesOf call) ∧
    ∀ t c locked, s.progress t = some (c, locked) → c.publication.call ≠ call

namespace TallyInvariant
variable {Tid Ty : Type} {Val : Ty → Type} {s s' : BusState Tid Val} {matched : ℕ → List ℕ}
  {results : List (ℕ × PublishResult)} {t : Tid}

theorem initial : TallyInvariant ({} : BusState Tid Val) (fun _ => []) [] := by
  refine ⟨?_, ?_, fun _ _ => rfl, fun _ => List.nodup_nil, ?_⟩
  · rintro t c ⟨⟩
  · rintro t c ⟨⟩
  · rintro call result ⟨⟩

/-- Nothing was reported, and no call has begun. -/
theorem quiet (h : TallyInvariant s matched results)
    (hprogress : ∀ u, s'.progress u = none ∨ s'.progress u = s.progress u)
    (houtcomes : s'.history.outcomes = s.history.outcomes)
    (hpublishes : s.history.publishes ≤ s'.history.publishes) :
    TallyInvariant s' matched results := by
  have hold {u : Tid} {c : PublishCall Tid Val} {locked : Bool}
      (hc : s'.progress u = some (c, locked)) : s.progress u = some (c, locked) := by
    rcases hprogress u with hnone | hsame
    · rw [hnone] at hc
      cases hc
    · exact hsame ▸ hc
  have hof := BusState.outcomesOf_congr houtcomes
  refine ⟨fun u c hc => ?_, fun u c hc => ?_, fun call hcall => ?_, fun call => ?_,
    fun call result hmem => ?_⟩
  · rw [hof]
    exact h.waiting u c (hold hc)
  · rw [hof]
    exact h.serving u c (hold hc)
  · rw [hof]
    exact h.fresh call (hpublishes.trans hcall)
  · rw [hof]
    exact h.reported_nodup call
  · obtain ⟨hlt, hmatched, hresult, hover⟩ := h.results call result hmem
    rw [hof]
    exact ⟨hlt.trans_le hpublishes, hmatched, hresult, fun u c locked hc => hover u c locked (hold hc)⟩

/-- A snapshot begins the next call. -/
theorem started (h : TallyInvariant s matched results) {p : Publication Tid Val}
    {order : List ℕ} (hcall : p.call = s.history.publishes)
    (hself : s'.progress t = some (⟨p, order, { matchedSubscribers := order.length }⟩, false))
    (hothers : ∀ u, u ≠ t → s'.progress u = s.progress u)
    (houtcomes : s'.history.outcomes = s.history.outcomes)
    (hpublishes : s'.history.publishes = s.history.publishes + 1) :
    TallyInvariant s' matched results := by
  have hof := BusState.outcomesOf_congr houtcomes
  have hcases {u : Tid} {c : PublishCall Tid Val} {locked : Bool}
      (hc : s'.progress u = some (c, locked)) :
      c = ⟨p, order, { matchedSubscribers := order.length }⟩ ∧ locked = false ∨
        s.progress u = some (c, locked) := by
    by_cases hut : u = t
    · subst hut
      rw [hself] at hc
      cases hc
      exact .inl ⟨rfl, rfl⟩
    · exact .inr (hothers u hut ▸ hc)
  refine ⟨fun u c hc => ?_, fun u c hc => ?_, fun call hle => ?_, fun call => ?_,
    fun call result hmem => ?_⟩
  · rw [hof]
    rcases hcases hc with ⟨rfl, -⟩ | hc
    · exact ⟨h.fresh p.call hcall.ge, rfl⟩
    · exact h.waiting u c hc
  · rw [hof]
    rcases hcases hc with ⟨-, hlocked⟩ | hc
    · cases hlocked
    · exact h.serving u c hc
  · rw [hof]
    exact h.fresh call (by omega)
  · rw [hof]
    exact h.reported_nodup call
  · obtain ⟨hlt, hmatched, hresult, hover⟩ := h.results call result hmem
    rw [hof]
    refine ⟨by omega, hmatched, hresult, fun u c locked hc => ?_⟩
    rcases hcases hc with ⟨rfl, -⟩ | hc
    · exact fun heq => by
        simp only [hcall] at heq
        omega
    · exact hover u c locked hc

/-- The dispatch mutex fixes what the call serves. -/
theorem locked (h : TallyInvariant s matched results) (hdispatch : BusState.DispatchInvariant s)
    {c : PublishCall Tid Val} (hbefore : s.progress t = some (c, false))
    (hself : s'.progress t = some (c, true)) (hothers : ∀ u, u ≠ t → s'.progress u = s.progress u)
    (houtcomes : s'.history.outcomes = s.history.outcomes)
    (hpublishes : s'.history.publishes = s.history.publishes) (hnodup : c.remaining.Nodup) :
    TallyInvariant s' (Function.update matched c.publication.call c.remaining) results := by
  have hof := BusState.outcomesOf_congr houtcomes
  obtain ⟨hempty, hresult⟩ := h.waiting t c hbefore
  refine ⟨fun u d hd => ?_, fun u d hd => ?_, fun call hle => ?_, fun call => ?_,
    fun call result hmem => ?_⟩
  · rw [hof]
    by_cases hut : u = t
    · subst hut
      rw [hself] at hd
      cases hd
    · exact h.waiting u d (hothers u hut ▸ hd)
  · rw [hof]
    by_cases hut : u = t
    · subst hut
      rw [hself] at hd
      cases hd
      rw [Function.update_self, hempty]
      exact ⟨hnodup, rfl, hresult⟩
    · rw [hothers u hut] at hd
      have hne := BusState.call_ne_of_progress hdispatch hbefore hd hut
      rw [Function.update_of_ne hne.symm]
      exact h.serving u d hd
  · rw [hof]
    exact h.fresh call (hpublishes ▸ hle)
  · rw [hof]
    exact h.reported_nodup call
  · obtain ⟨hlt, hmatched, hresult, hover⟩ := h.results call result hmem
    rw [hof, Function.update_of_ne (hover t c false hbefore).symm]
    refine ⟨hpublishes ▸ hlt, hmatched, hresult, fun u d locked hd => ?_⟩
    by_cases hut : u = t
    · subst hut
      rw [hself] at hd
      cases hd
      exact hover u c false hbefore
    · exact hover u d locked (hothers u hut ▸ hd)

/-- A block has answered the call. -/
theorem delivered (h : TallyInvariant s matched results)
    (hdispatch : BusState.DispatchInvariant s) {p : Publication Tid Val} {block : ℕ}
    {rest : List ℕ} {result : PublishResult} {outcome : DeliveryOutcome}
    (hbefore : s.progress t = some (⟨p, block :: rest, result⟩, true))
    (hself : s'.progress t = some (⟨p, rest, result.add outcome⟩, true))
    (hothers : ∀ u, u ≠ t → s'.progress u = s.progress u)
    (houtcomes : s'.history.outcomes = s.history.outcomes ++ [(p.call, block, outcome)])
    (hpublishes : s'.history.publishes = s.history.publishes) :
    TallyInvariant s' matched results := by
  have hof := BusState.outcomesOf_append houtcomes
  have hown : s'.outcomesOf p.call = s.outcomesOf p.call ++ [(block, outcome)] := by
    rw [hof, if_pos rfl]
  have hkept {call : ℕ} (hcall : p.call ≠ call) : s'.outcomesOf call = s.outcomesOf call := by
    rw [hof, if_neg hcall, List.append_nil]
  obtain ⟨hnodup, hmatched, hresult⟩ := h.serving t _ hbefore
  have hsplit : matched p.call = (s'.outcomesOf p.call).map Prod.fst ++ rest := by
    rw [hmatched, hown, List.map_append, List.append_assoc]
    rfl
  refine ⟨fun u d hd => ?_, fun u d hd => ?_, fun call hle => ?_, fun call => ?_,
    fun call result' hmem => ?_⟩
  · by_cases hut : u = t
    · subst hut
      rw [hself] at hd
      cases hd
    · rw [hothers u hut] at hd
      rw [hkept (BusState.call_ne_of_progress hdispatch hbefore hd hut)]
      exact h.waiting u d hd
  · by_cases hut : u = t
    · subst hut
      rw [hself] at hd
      cases hd
      refine ⟨hnodup, hsplit, ?_⟩
      simp only [hown, PublishResult.tally_append]
      exact congrArg (fun r => PublishResult.add r outcome) hresult
    · rw [hothers u hut] at hd
      rw [hkept (BusState.call_ne_of_progress hdispatch hbefore hd hut)]
      exact h.serving u d hd
  · have hlt : p.call < s.history.publishes := BusState.call_lt_of_progress hdispatch hbefore
    have hne : p.call ≠ call := by
      rintro rfl
      simp only [hpublishes] at hle
      omega
    rw [hkept hne]
    exact h.fresh call (hpublishes ▸ hle)
  · by_cases hcall : p.call = call
    · subst hcall
      exact hnodup.sublist (hsplit ▸ List.sublist_append_left _ _)
    · rw [hkept hcall]
      exact h.reported_nodup call
  · obtain ⟨hlt, hmatched', hresult', hover⟩ := h.results call result' hmem
    rw [hkept (hover t _ true hbefore)]
    refine ⟨hpublishes ▸ hlt, hmatched', hresult', fun u d locked hd => ?_⟩
    by_cases hut : u = t
    · subst hut
      rw [hself] at hd
      cases hd
      have hcall : p.call ≠ call := hover u _ true hbefore
      exact hcall
    · exact hover u d locked (hothers u hut ▸ hd)

/-- A call returns when every block has answered. -/
theorem returned (h : TallyInvariant s matched results) (hdispatch : BusState.DispatchInvariant s)
    {p : Publication Tid Val} {result : PublishResult}
    (hbefore : s.progress t = some (⟨p, [], result⟩, true)) (hself : s'.progress t = none)
    (hothers : ∀ u, u ≠ t → s'.progress u = s.progress u)
    (houtcomes : s'.history.outcomes = s.history.outcomes)
    (hpublishes : s'.history.publishes = s.history.publishes) :
    TallyInvariant s' matched (results ++ [(p.call, result)]) := by
  have hquiet : TallyInvariant s' matched results := by
    refine h.quiet (fun u => ?_) houtcomes hpublishes.ge
    by_cases hut : u = t
    · exact .inl (hut ▸ hself)
    · exact .inr (hothers u hut)
  refine ⟨hquiet.waiting, hquiet.serving, hquiet.fresh, hquiet.reported_nodup,
    fun call result' hmem => ?_⟩
  rcases List.mem_append.mp hmem with hmem | hmem
  · exact hquiet.results call result' hmem
  · cases List.mem_singleton.mp hmem
    obtain ⟨-, hmatched, hresult⟩ := h.serving t _ hbefore
    rw [BusState.outcomesOf_congr houtcomes, hpublishes]
    refine ⟨BusState.call_lt_of_progress hdispatch hbefore, by simpa using hmatched, hresult,
      fun u d locked hd => ?_⟩
    have hut : u ≠ t := by
      rintro rfl
      rw [hself] at hd
      cases hd
    exact (BusState.call_ne_of_progress hdispatch hbefore (hothers u hut ▸ hd) hut).symm

variable [DecidableEq Tid]

/-- A step that changes no publication under way, or only ends one. -/
theorem setCall (h : TallyInvariant s matched results) (call : BusCall Tid Val)
    (hcall : call.progress = none ∨ call.progress = s.progress t)
    (hthreads : s'.threads = (s.setCall t call).threads)
    (houtcomes : s'.history.outcomes = s.history.outcomes)
    (hpublishes : s'.history.publishes = s.history.publishes) :
    TallyInvariant s' matched results := by
  refine h.quiet (fun u => ?_) houtcomes hpublishes.ge
  rw [BusState.progress, hthreads, BusState.setCall_threads]
  split
  case isTrue hut => exact hut ▸ hcall
  case isFalse => exact .inr rfl

variable [DecidableEq Ty]

theorem step {log : DeliveryLog Tid Val} {a : BusAction Tid Val}
    (hregistry : BusState.RegistryInvariant s) (hdispatch : BusState.DispatchInvariant s)
    (h : TallyInvariant s log.matched log.results) (hs : s.step a = some s') :
    TallyInvariant s' (log.note s a).matched (log.note s a).results := by
  have hothers {call : BusCall Tid Val} {bus : BusState Tid Val} {t : Tid} (u : Tid) (hut : u ≠ t) :
      (bus.setCall t call).progress u = bus.progress u := by
    rw [BusState.progress, BusState.setCall_threads, if_neg hut]
    rfl
  have hself {call : BusCall Tid Val} {bus : BusState Tid Val} (t : Tid) :
      (bus.setCall t call).progress t = call.progress := by
    rw [BusState.progress, BusState.setCall_threads, if_pos rfl]
  have hdrains {t : Tid} (bus : BusState Tid Val) (drain : Option ℕ) (u : Tid) :
      (bus.setDrain t drain).progress u = bus.progress u := by
    rw [BusState.progress, BusState.setDrain_threads]
    split
    case isTrue hut => rw [hut, BusState.progress]
    case isFalse => rfl
  have hprogress {t : Tid} {call : BusCall Tid Val} (hcall : (s.threads t).call = call) :
      s.progress t = call.progress := congrArg BusCall.progress hcall
  cases BusState.step_view hs with
  | advertised | subscribed | unsubscribed | expired =>
    exact h.quiet (fun u => .inr rfl) rfl le_rfl
  | threw t a publishes e huser hregistry hactor hle =>
    have hnote : (log.note s a).matched = log.matched ∧ (log.note s a).results = log.results := by
      cases a <;> first | exact ⟨rfl, rfl⟩ | cases hregistry
    rw [hnote.1, hnote.2]
    exact h.quiet (fun u => .inr rfl) rfl hle
  | snapshot t p record order huser haccepting hrecord hcontract hcall hpublisher horder =>
    exact h.started hcall (hself t) (fun u hut => hothers u hut) rfl rfl
  | locked t c hcall hfree =>
    have hnote : (log.note s (.lockDispatch t)).matched =
        Function.update log.matched c.publication.call c.remaining := by
      simp only [DeliveryLog.note, DeliveryLog.noteMatched, hcall]
    rw [hnote]
    have hnodup := (hregistry.fanout t _ (congrArg BusCall.fanout hcall)).1
    exact h.locked hdispatch (hprogress hcall) (hself t) (fun u hut => hothers u hut) rfl rfl hnodup
  | enqueued t p block rest result sub state call outcomes hcall hsub hstate hnext =>
    rcases hnext with ⟨-, rfl, rfl⟩ | ⟨-, rfl, rfl⟩
    · exact h.setCall (.enqueueing ⟨p, rest, result⟩ block) (.inr (hprogress hcall).symm) rfl rfl
        rfl
    · exact h.delivered hdispatch (hprogress hcall) (hself t) (fun u hut => hothers u hut) rfl rfl
  | posted t c block outcome sub state hcall hsub hposting hstate =>
    exact h.delivered hdispatch (hprogress hcall) (hself t) (fun u hut => hothers u hut) rfl rfl
  | postFailed => exact h.quiet (fun u => .inr rfl) rfl le_rfl
  | cleaned t c block outcome sub state hcall hsub hcleaning hstate =>
    exact h.delivered hdispatch (hprogress hcall) (hself t) (fun u hut => hothers u hut) rfl rfl
  | cleanedThrew t c block outcome sub state hcall hsub hcleaning hstate =>
    exact h.setCall .none (.inl rfl) rfl rfl rfl
  | unlocked t p result hcall =>
    have hnote : (log.note s (.unlockDispatch t)).results = log.results ++ [(p.call, result)] := by
      simp only [DeliveryLog.note, DeliveryLog.noteResult, hcall]
    rw [hnote]
    exact h.returned hdispatch (hprogress hcall) (hself t) (fun u hut => hothers u hut) rfl rfl
  | owner t a act block sub state call hact hold hnew =>
    have hnote : (log.note s a).matched = log.matched ∧ (log.note s a).results = log.results := by
      cases hact <;> exact ⟨rfl, rfl⟩
    have hnone : call.progress = none := by
      cases call <;> first | rfl | cases hnew
    rw [hnote.1, hnote.2]
    exact h.setCall call (.inl hnone) rfl rfl rfl
  | stopping t order huser => exact h.setCall (.stopping order) (.inl rfl) rfl rfl rfl
  | stopReturned t hcall => exact h.setCall .none (.inl rfl) rfl rfl rfl
  | startedDrain t block => exact h.quiet (fun u => .inr (hdrains _ (some block) u)) rfl le_rfl
  | drained t a act block sub state drain hact =>
    have hnote : (log.note s a).matched = log.matched ∧ (log.note s a).results = log.results := by
      cases hact <;> exact ⟨rfl, rfl⟩
    rw [hnote.1, hnote.2]
    exact h.quiet (fun u => .inr (hdrains _ drain u)) rfl le_rfl

end TallyInvariant

end RobotMiddleware
