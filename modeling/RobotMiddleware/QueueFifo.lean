import RobotMiddleware.QueueSteps

/-! A closable bounded FIFO: what has been popped, followed by the content, is what the producers
brought in, in the order of their sections. -/
namespace RobotMiddleware
open ConditionVariable

def QueuePhase.pending {α : Type} : QueuePhase α → Option (QueueCall α)
  | .locking call | .waiting call _ => some call
  | _ => none

def QueuePhase.settled {α : Type} : QueuePhase α → Option (QueueCall α × QueueReturn α)
  | .leaving call returned _ | .notifying call returned _ => some (call, returned)
  | _ => none

namespace QueueHistory
variable {α : Type}

def acceptedBy (entry : QueueCall α × QueueReturn α) : Option (QueueCall α × α) :=
  match entry.2 with
  | .pushed true => entry.1.op.value.map fun value => (entry.1, value)
  | _ => none

def poppedBy (entry : QueueCall α × QueueReturn α) : Option (QueueCall α × α) :=
  match entry.2 with
  | .popped (some value) => some (entry.1, value)
  | _ => none

/-- The elements that came in, in the order of their push sections. -/
def accepted (h : QueueHistory α) : List (QueueCall α × α) := h.sections.filterMap acceptedBy

def popped (h : QueueHistory α) : List (QueueCall α × α) := h.sections.filterMap poppedBy

theorem accepted_append (h : QueueHistory α) (entry : QueueCall α × QueueReturn α) :
    ({ h with sections := h.sections ++ [entry] } : QueueHistory α).accepted =
      h.accepted ++ (acceptedBy entry).toList := by
  rw [accepted, List.filterMap_append]
  cases hentry : acceptedBy entry <;> simp [accepted, hentry]

theorem popped_append (h : QueueHistory α) (entry : QueueCall α × QueueReturn α) :
    ({ h with sections := h.sections ++ [entry] } : QueueHistory α).popped =
      h.popped ++ (poppedBy entry).toList := by
  rw [popped, List.filterMap_append]
  cases hentry : poppedBy entry <;> simp [popped, hentry]

end QueueHistory

namespace QueueState
variable {Tid α : Type} [DecidableEq Tid] {s s' : QueueState Tid α} {capacity : ℕ}

/-- The call has returned `returned`, or its thread is on its way out with it. -/
def Returns (s : QueueState Tid α) (call : QueueCall α) (returned : QueueReturn α) : Prop :=
  (call, returned) ∈ s.history.returns ∨ ∃ t, (s.threads t).settled = some (call, returned)

/-! ### The calls -/

inductive CallView (s : QueueState Tid α) (a : QueueAction Tid α) (s' : QueueState Tid α) : Prop
  | quiet : s'.history = s.history → (∀ u, (s'.threads u).pending = (s.threads u).pending) →
      (∀ u, (s'.threads u).settled = (s.threads u).settled) → s'.queue = s.queue → CallView s a s'
  | called (t : Tid) (op : QueueOp α) : a = .call t op → (s.threads t).settled = none →
      s'.history = { s.history with calls := s.history.calls + 1 } →
      (∀ u, (s'.threads u).pending =
        if u = t then some ⟨s.history.calls, op⟩ else (s.threads u).pending) →
      (∀ u, (s'.threads u).settled = (s.threads u).settled) → s'.queue = s.queue → CallView s a s'
  | finished (t : Tid) (timedOut : Bool) (call : QueueCall α) (q : ThreadSafeQueue α)
      (returned : QueueReturn α) (notifies : List QueueNotify) : a = .enter t timedOut →
      (s.threads t).pending = some call →
      s.queue.SectionView call.op (.done q returned notifies) →
      s'.history = { s.history with sections := s.history.sections ++ [(call, returned)] } →
      (∀ u, (s'.threads u).pending = if u = t then none else (s.threads u).pending) →
      (∀ u, (s'.threads u).settled =
        if u = t then some (call, returned) else (s.threads u).settled) →
      s'.queue = q → CallView s a s'
  | returned (t : Tid) (call : QueueCall α) (returned : QueueReturn α) :
      (s.threads t).settled = some (call, returned) →
      s'.history = { s.history with returns := s.history.returns ++ [(call, returned)] } →
      (∀ u, (s'.threads u).pending = (s.threads u).pending) →
      (∀ u, (s'.threads u).settled = if u = t then none else (s.threads u).settled) →
      s'.queue = s.queue → CallView s a s'

omit [DecidableEq Tid] in
theorem Enters.pending {t : Tid} {call : QueueCall α} (h : s.Enters t call) :
    (s.threads t).pending = some call ∧ (s.threads t).settled = none := by
  rcases h with hphase | ⟨c, hphase, -⟩ <;> rw [hphase] <;> exact ⟨rfl, rfl⟩

theorem call_view {a : QueueAction Tid α} (h : s.step a = some s') : CallView s a s' := by
  -- a change of phase at one thread that keeps what the thread has pending and settled
  have hmoved (t : Tid) (phase : QueuePhase α) {r : QueueState Tid α}
      (hthreads : r.threads = s.threads) (hp : phase.pending = (s.threads t).pending)
      (hs : phase.settled = (s.threads t).settled) :
      (∀ u, ((r.setPhase t phase).threads u).pending = (s.threads u).pending) ∧
        ∀ u, ((r.setPhase t phase).threads u).settled = (s.threads u).settled := by
    constructor <;> intro u <;> rw [setPhase_threads, hthreads] <;> split
    case left.isTrue h => rw [h, hp]
    case right.isTrue h => rw [h, hs]
    all_goals rfl
  cases step_view h with
  | called t op hidle =>
    refine .called t op rfl (by rw [hidle]; rfl) rfl ?_ ?_ rfl
    · intro u
      rw [setPhase_threads]
      split <;> rfl
    · intro u
      rw [setPhase_threads]
      split
      case isTrue h => rw [h, hidle]; rfl
      case isFalse => rfl
  | slept t timedOut call c howner henters hview =>
    obtain ⟨hpending, hsettled⟩ := hmoved t (.waiting call c)
      (setWaitSet_threads s c _) henters.pending.1.symm henters.pending.2.symm
    exact .quiet (by simp) hpending hsettled (by simp)
  | finished t timedOut call q returned notifies howner henters hview =>
    refine .finished t timedOut call q returned notifies rfl henters.pending.1 hview rfl ?_ ?_ rfl
    · intro u
      rw [setPhase_threads]
      split <;> rfl
    · intro u
      rw [setPhase_threads]
      split <;> rfl
  | unlocked t call returned notifies hphase =>
    obtain ⟨hpending, hsettled⟩ := hmoved t (.notifying call returned notifies)
      (r := { s with owner := none }) rfl (by rw [hphase]; rfl) (by rw [hphase]; rfl)
    exact .quiet rfl hpending hsettled rfl
  | notifiedOne t u call returned c notifies hphase hu =>
    obtain ⟨hpending, hsettled⟩ := hmoved t (.notifying call returned notifies)
      (setWaitSet_threads s c _) (by rw [hphase]; rfl) (by rw [hphase]; rfl)
    exact .quiet (by simp) hpending hsettled (by simp)
  | notifiedNone t call returned c notifies hphase hempty =>
    obtain ⟨hpending, hsettled⟩ := hmoved t (.notifying call returned notifies)
      (setWaitSet_threads s c _) (by rw [hphase]; rfl) (by rw [hphase]; rfl)
    exact .quiet (by simp) hpending hsettled (by simp)
  | notifiedAll t target call returned c notifies hphase =>
    obtain ⟨hpending, hsettled⟩ := hmoved t (.notifying call returned notifies)
      (setWaitSet_threads s c _) (by rw [hphase]; rfl) (by rw [hphase]; rfl)
    exact .quiet (by simp) hpending hsettled (by simp)
  | woke t call c hphase hasleep => exact .quiet (by simp) (by simp) (by simp) (by simp)
  | returned t call returned hphase =>
    refine .returned t call returned (by rw [hphase]; rfl) rfl ?_ ?_ rfl
    · intro u
      rw [setPhase_threads]
      split
      case isTrue h => rw [h, hphase]; rfl
      case isFalse => rfl
    · intro u
      rw [setPhase_threads]
      split <;> rfl

/-- Every call has one number and one section, and its result is on record from then on. -/
structure CallInvariant (s : QueueState Tid α) : Prop where
  numbered : ∀ t call, (s.threads t).pending = some call →
    call.ticket < s.history.calls ∧ call.ticket ∉ s.history.sections.map (·.1.ticket)
  distinct : ∀ t u call call', (s.threads t).pending = some call →
    (s.threads u).pending = some call' → call.ticket = call'.ticket → t = u
  logged : ∀ entry ∈ s.history.sections, entry.1.ticket < s.history.calls
  nodup : (s.history.sections.map (·.1.ticket)).Nodup
  recorded : ∀ call returned, (call, returned) ∈ s.history.sections ↔ s.Returns call returned

theorem CallInvariant.step {a : QueueAction Tid α} (h : CallInvariant s)
    (hs : s.step a = some s') : CallInvariant s' := by
  cases call_view hs with
  | quiet hhistory hpending hsettled =>
    refine ⟨?_, ?_, hhistory ▸ h.logged, hhistory ▸ h.nodup, ?_⟩
    · simpa only [hhistory, hpending] using h.numbered
    · simpa only [hpending] using h.distinct
    · simpa only [Returns, hhistory, hsettled] using h.recorded
  | called t op _ hidle hhistory hpending hsettled =>
    have hnew : s.history.calls ∉ s.history.sections.map (·.1.ticket) := by
      intro hmem
      obtain ⟨entry, hentry, heq⟩ := List.mem_map.mp hmem
      have := h.logged entry hentry
      omega
    refine ⟨?_, ?_, ?_, ?_, ?_⟩
    · intro u call hcall
      rw [hhistory]
      rw [hpending] at hcall
      split at hcall
      case isTrue =>
        cases hcall
        exact ⟨Nat.lt_succ_self _, hnew⟩
      case isFalse =>
        obtain ⟨hlt, hfresh⟩ := h.numbered u call hcall
        exact ⟨Nat.lt_succ_of_lt hlt, hfresh⟩
    · intro u v call call' hcall hcall' heq
      rw [hpending] at hcall hcall'
      split at hcall <;> split at hcall'
      case isTrue.isTrue hu hv => rw [hu, hv]
      case isTrue.isFalse =>
        cases hcall
        exact absurd (heq ▸ (h.numbered v call' hcall').1) (Nat.lt_irrefl _)
      case isFalse.isTrue =>
        cases hcall'
        exact absurd (heq ▸ (h.numbered u call hcall).1) (Nat.lt_irrefl _)
      case isFalse.isFalse => exact h.distinct u v call call' hcall hcall' heq
    · rw [hhistory]
      exact fun entry hentry => Nat.lt_succ_of_lt (h.logged entry hentry)
    · rw [hhistory]
      exact h.nodup
    · simpa only [Returns, hhistory, hsettled] using h.recorded
  | finished t _ call q returned notifies _ hcall hview hhistory hpending hsettled =>
    have hfresh := h.numbered t call hcall
    refine ⟨?_, ?_, ?_, ?_, ?_⟩
    · intro u call' hcall'
      rw [hpending] at hcall'
      obtain ⟨hne, hcall'⟩ := Option.ite_none_left_eq_some.mp hcall'
      obtain ⟨hlt, hnew⟩ := h.numbered u call' hcall'
      have hother : call'.ticket ≠ call.ticket := fun heq =>
        hne (h.distinct u t call' call hcall' hcall heq)
      rw [hhistory]
      refine ⟨hlt, ?_⟩
      simpa only [List.map_append, List.map_cons, List.map_nil, List.mem_append,
        List.mem_singleton, not_or] using ⟨hnew, hother⟩
    · intro u v call' call'' hcall' hcall'' heq
      rw [hpending] at hcall' hcall''
      exact h.distinct u v call' call'' (Option.ite_none_left_eq_some.mp hcall').2
        (Option.ite_none_left_eq_some.mp hcall'').2 heq
    · rw [hhistory]
      intro entry hentry
      rcases List.mem_append.mp hentry with hentry | hentry
      · exact h.logged entry hentry
      · rw [List.mem_singleton.mp hentry]
        exact hfresh.1
    · rw [hhistory]
      simp only [List.map_append, List.map_cons, List.map_nil]
      exact List.nodup_append.mpr ⟨h.nodup, List.nodup_singleton _, fun a ha b hb heq => by
        rw [List.mem_singleton.mp hb] at heq
        exact hfresh.2 (heq ▸ ha)⟩
    · intro call' returned'
      have hbusy : (s.threads t).settled = none := by
        cases hphase : s.threads t <;> rw [hphase] at hcall <;> cases hcall <;> rfl
      have hold := h.recorded call' returned'
      simp only [Returns, hhistory, hsettled, List.mem_append, List.mem_singleton, Prod.mk.injEq]
        at hold ⊢
      rw [hold]
      constructor
      · rintro ((hret | ⟨u, hu⟩) | ⟨rfl, rfl⟩)
        · exact .inl hret
        · refine .inr ⟨u, ?_⟩
          rw [if_neg (fun heq => by rw [heq, hbusy] at hu; cases hu)]
          exact hu
        · exact .inr ⟨t, if_pos rfl⟩
      · rintro (hret | ⟨u, hu⟩)
        · exact .inl (.inl hret)
        · split at hu
          case isTrue =>
            cases hu
            exact .inr ⟨rfl, rfl⟩
          case isFalse => exact .inl (.inr ⟨u, hu⟩)
  | returned t call returned hcall hhistory hpending hsettled =>
    refine ⟨?_, ?_, ?_, ?_, ?_⟩
    · simpa only [hhistory, hpending] using h.numbered
    · simpa only [hpending] using h.distinct
    · rw [hhistory]
      exact h.logged
    · rw [hhistory]
      exact h.nodup
    · intro call' returned'
      have hold := h.recorded call' returned'
      simp only [Returns, hhistory, hsettled, List.mem_append, List.mem_singleton, Prod.mk.injEq]
        at hold ⊢
      rw [hold]
      constructor
      · rintro (hret | ⟨u, hu⟩)
        · exact .inl (.inl hret)
        · by_cases hut : u = t
          · rw [hut, hcall] at hu
            cases hu
            exact .inl (.inr ⟨rfl, rfl⟩)
          · exact .inr ⟨u, by rw [if_neg hut]; exact hu⟩
      · rintro ((hret | ⟨rfl, rfl⟩) | ⟨u, hu⟩)
        · exact .inl hret
        · exact .inr ⟨t, hcall⟩
        · exact .inr ⟨u, (Option.ite_none_left_eq_some.mp hu).2⟩

theorem callInvariant_of_reachable (h : (queueSystem Tid α capacity).Reachable s) :
    CallInvariant s := by
  refine h.invariant ?_ (fun s a s' _ hinv hs => hinv.step hs)
  rintro s rfl
  refine ⟨?_, ?_, ?_, ?_, ?_⟩
  · intro t call hcall
    cases hcall
  · intro t u call call' hcall
    cases hcall
  · intro entry hentry
    cases hentry
  · exact List.nodup_nil
  · intro call returned
    constructor
    · intro hmem
      cases hmem
    · rintro (hmem | ⟨t, ht⟩)
      · cases hmem
      · cases ht

omit [DecidableEq Tid] in
/-- A call has one result. -/
theorem CallInvariant.result_unique (h : CallInvariant s) {call : QueueCall α}
    {returned returned' : QueueReturn α} (hcall : (call, returned) ∈ s.history.sections)
    (hcall' : (call, returned') ∈ s.history.sections) : returned = returned' := by
  have heq := List.inj_on_of_nodup_map h.nodup hcall hcall' rfl
  exact (Prod.mk.inj heq).2

/-! ### The content -/

def Fits (entry : QueueCall α × QueueReturn α) : Prop :=
  match entry.2 with
  | .pushed _ => ∃ value, entry.1.op.value = some value
  | .popped _ => entry.1.op.pops = true
  | .closed _ => entry.1.op = .close

def isFirstClose (entry : QueueCall α × QueueReturn α) : Bool :=
  match entry.2 with
  | .closed first => first
  | _ => false

structure FifoInvariant (capacity : ℕ) (s : QueueState Tid α) : Prop where
  sized : s.queue.capacity = capacity
  fifo : s.history.popped.map Prod.snd ++ s.queue.queue = s.history.accepted.map Prod.snd
  bounded : capacity ≠ 0 → s.queue.queue.length ≤ capacity
  fits : ∀ entry ∈ s.history.sections, Fits entry
  drained : ∀ call : QueueCall α, call.op = .waitPop →
    (call, .popped none) ∈ s.history.sections → s.queue.closed = true ∧ s.queue.queue = []
  closedOnce : s.history.sections.countP isFirstClose = if s.queue.closed then 1 else 0

omit [DecidableEq Tid] in
theorem FifoInvariant.step_done {call : QueueCall α} {q : ThreadSafeQueue α}
    {returned : QueueReturn α} {notifies : List QueueNotify} (h : FifoInvariant capacity s)
    (hview : s.queue.SectionView call.op (.done q returned notifies)) (hqueue : s'.queue = q)
    (hhistory : s'.history =
      { s.history with sections := s.history.sections ++ [(call, returned)] }) :
    FifoInvariant capacity s' := by
  have hlast (P : QueueCall α × QueueReturn α → Prop)
      (hold : ∀ entry ∈ s.history.sections, P entry) (hnew : P (call, returned)) :
      ∀ entry ∈ s.history.sections ++ [(call, returned)], P entry := by
    intro entry hentry
    rcases List.mem_append.mp hentry with hentry | hentry
    · exact hold entry hentry
    · exact List.mem_singleton.mp hentry ▸ hnew
  -- an earlier `nullopt` of `wait_pop` leaves nothing for this section to find or to add
  have hdrained (call' : QueueCall α) (hop : call'.op = .waitPop)
      (hmem : (call', .popped none) ∈ s.history.sections ++ [(call, returned)]) :
      s.queue.closed = true ∧ s.queue.queue = [] ∨ (call, returned) = (call', .popped none) := by
    rcases List.mem_append.mp hmem with hmem | hmem
    · exact .inl (h.drained call' hop hmem)
    · exact .inr (List.mem_singleton.mp hmem).symm
  have hfifo := h.fifo
  constructor
  case sized =>
    rw [hqueue]
    cases hview <;> exact h.sized
  case fifo =>
    rw [hqueue, hhistory, QueueHistory.popped_append, QueueHistory.accepted_append, List.map_append, List.map_append,
      ← hfifo]
    cases hview with
    | pushed value hop => simp [QueueHistory.poppedBy, QueueHistory.acceptedBy, hop]
    | popped value rest hop hcontent =>
      simp [QueueHistory.poppedBy, QueueHistory.acceptedBy, hcontent]
    | _ => simp [QueueHistory.poppedBy, QueueHistory.acceptedBy, ThreadSafeQueue.close]
  case bounded =>
    intro hcap
    rw [hqueue]
    have hbounded := h.bounded hcap
    cases hview with
    | pushed value hop hclosed hfull =>
      have hlt := ThreadSafeQueue.length_lt_of_not_full hfull (h.sized ▸ hcap)
      rw [h.sized] at hlt
      simpa using hlt
    | popped value rest hop hcontent =>
      rw [hcontent, List.length_cons] at hbounded
      exact Nat.le_of_succ_le hbounded
    | _ => exact hbounded
  case fits =>
    rw [hhistory]
    refine hlast Fits h.fits ?_
    cases hview with
    | pushed value hop => exact ⟨value, hop⟩
    | refused value hop => exact ⟨value, hop⟩
    | popped value rest hop => exact hop
    | gaveUp hop => exact hop
    | closed hop => exact hop
    | closedAgain hop => exact hop
  case drained =>
    intro call' hop hmem
    rw [hhistory] at hmem
    rw [hqueue]
    have hcase := hdrained call' hop hmem
    cases hview with
    | pushed value _ hopen =>
      rcases hcase with hcase | hcase
      · rw [hopen] at hcase
        cases hcase.1
      · cases hcase
    | popped value rest _ hcontent =>
      rcases hcase with hcase | hcase
      · rw [hcontent] at hcase
        cases hcase.2
      · cases hcase
    | gaveUp _ hcontent hclosed =>
      rcases hcase with hcase | hcase
      · exact hcase
      · cases hcase
        exact ⟨hclosed hop, hcontent⟩
    | closed _ hopen =>
      rcases hcase with hcase | hcase
      · rw [hopen] at hcase
        cases hcase.1
      · cases hcase
    | refused | closedAgain =>
      rcases hcase with hcase | hcase
      · exact hcase
      · cases hcase
  case closedOnce =>
    rw [hqueue, hhistory, List.countP_append, h.closedOnce]
    cases hview with
    | closed _ hopen => simp [isFirstClose, ThreadSafeQueue.close, hopen]
    | _ => simp [isFirstClose]

theorem FifoInvariant.step {a : QueueAction Tid α} (h : FifoInvariant capacity s)
    (hs : s.step a = some s') : FifoInvariant capacity s' := by
  have hkept (hqueue : s'.queue = s.queue) (hsections : s'.history.sections = s.history.sections) :
      FifoInvariant capacity s' := by
    refine ⟨hqueue ▸ h.sized, ?_, hqueue ▸ h.bounded, hsections ▸ h.fits, ?_, ?_⟩
    · rw [hqueue, QueueHistory.accepted, QueueHistory.popped, hsections]
      exact h.fifo
    · rw [hqueue, hsections]
      exact h.drained
    · rw [hqueue, hsections]
      exact h.closedOnce
  cases call_view hs with
  | quiet hhistory _ _ hqueue => exact hkept hqueue (congrArg _ hhistory)
  | called t op _ _ hhistory _ _ hqueue => exact hkept hqueue (congrArg QueueHistory.sections hhistory :)
  | finished t _ call q returned notifies _ _ hview hhistory _ _ hqueue =>
    exact h.step_done hview hqueue hhistory
  | returned t call returned _ hhistory _ _ hqueue =>
    exact hkept hqueue (congrArg QueueHistory.sections hhistory :)

theorem fifoInvariant_of_reachable (h : (queueSystem Tid α capacity).Reachable s) :
    FifoInvariant capacity s := by
  refine h.invariant ?_ (fun s a s' _ hinv hs => hinv.step hs)
  rintro s rfl
  refine ⟨rfl, rfl, fun _ => Nat.zero_le _, ?_, ?_, rfl⟩
  · intro entry hentry
    cases hentry
  · intro call _ hmem
    cases hmem

/-- A closed queue takes nothing more. -/
theorem closed_of_step {a : QueueAction Tid α} (hclosed : s.queue.closed = true)
    (hs : s.step a = some s') :
    s'.queue.closed = true ∧ s'.history.accepted = s.history.accepted := by
  have hkept (hqueue : s'.queue = s.queue) (hsections : s'.history.sections = s.history.sections) :
      s'.queue.closed = true ∧ s'.history.accepted = s.history.accepted := by
    rw [hqueue, QueueHistory.accepted, hsections]
    exact ⟨hclosed, rfl⟩
  cases call_view hs with
  | quiet hhistory _ _ hqueue => exact hkept hqueue (congrArg _ hhistory)
  | called t op _ _ hhistory _ _ hqueue => exact hkept hqueue (congrArg QueueHistory.sections hhistory :)
  | returned t call returned _ hhistory _ _ hqueue =>
    exact hkept hqueue (congrArg QueueHistory.sections hhistory :)
  | finished t _ call q returned notifies _ _ hview hhistory _ _ hqueue =>
    rw [hqueue, hhistory, QueueHistory.accepted_append]
    cases hview with
    | pushed value _ hopen =>
      rw [hopen] at hclosed
      cases hclosed
    | closed => exact ⟨rfl, by simp [QueueHistory.acceptedBy]⟩
    | _ => exact ⟨hclosed, by simp [QueueHistory.acceptedBy]⟩

theorem accepted_of_leads (hclosed : s.queue.closed = true)
    (h : (queueSystem Tid α capacity).Leads s s') :
    s'.history.accepted = s.history.accepted := by
  have hkeep := h.invariant
    (P := fun t => t.queue.closed = true ∧ t.history.accepted = s.history.accepted)
    (fun t a t' ht hstep => by
      obtain ⟨hclosed', haccepted⟩ := closed_of_step ht.1 hstep
      exact ⟨hclosed', haccepted.trans ht.2⟩)
    ⟨hclosed, rfl⟩
  exact hkeep.2

omit [DecidableEq Tid] in
theorem mem_accepted {h : QueueHistory α} {call : QueueCall α} {value : α} :
    (call, value) ∈ h.accepted ↔
      call.op.value = some value ∧ (call, .pushed true) ∈ h.sections := by
  rw [QueueHistory.accepted, List.mem_filterMap]
  constructor
  · rintro ⟨⟨call', returned⟩, hmem, heq⟩
    unfold QueueHistory.acceptedBy at heq
    split at heq
    case h_1 hreturned =>
      obtain ⟨value', hvalue, heq⟩ := Option.map_eq_some_iff.mp heq
      obtain ⟨rfl, rfl⟩ := Prod.mk.inj heq
      cases hreturned
      exact ⟨hvalue, hmem⟩
    case h_2 => cases heq
  · rintro ⟨hvalue, hmem⟩
    exact ⟨_, hmem, by simp [QueueHistory.acceptedBy, hvalue]⟩

omit [DecidableEq Tid] in
theorem mem_popped {h : QueueHistory α} {call : QueueCall α} {value : α} :
    (call, value) ∈ h.popped ↔ (call, .popped (some value)) ∈ h.sections := by
  rw [QueueHistory.popped, List.mem_filterMap]
  constructor
  · rintro ⟨⟨call', returned⟩, hmem, heq⟩
    unfold QueueHistory.poppedBy at heq
    split at heq
    case h_1 value' hreturned =>
      obtain ⟨rfl, rfl⟩ := Prod.mk.inj (Option.some.inj heq)
      cases hreturned
      exact hmem
    case h_2 => cases heq
  · intro hmem
    exact ⟨_, hmem, rfl⟩

omit [DecidableEq Tid] in
/-- The entries that a selection keeps have calls of their own. -/
theorem CallInvariant.nodup_filterMap (h : CallInvariant s)
    {f : QueueCall α × QueueReturn α → Option (QueueCall α × α)}
    (hf : ∀ entry entry', f entry = some entry' → entry'.1 = entry.1) :
    ((s.history.sections.filterMap f).map (·.1.ticket)).Nodup := by
  have hsub : List.Sublist ((s.history.sections.filterMap f).map (·.1.ticket))
      (s.history.sections.map (·.1.ticket)) := by
    induction s.history.sections with
    | nil => exact List.Sublist.refl _
    | cons entry rest ih =>
      rw [List.filterMap_cons]
      split
      case h_1 => exact ih.cons _
      case h_2 entry' hentry =>
        rw [List.map_cons, List.map_cons, hf entry entry' hentry]
        exact ih.cons_cons _
  exact h.nodup.sublist hsub

/-- The queue is a closable bounded FIFO. -/
theorem closable_bounded_fifo (h : (queueSystem Tid α capacity).Reachable s) :
    s.history.popped.map Prod.snd ++ s.queue.queue = s.history.accepted.map Prod.snd ∧
    (∀ call value, (call, value) ∈ s.history.accepted ↔
      call.op.value = some value ∧ s.Returns call (.pushed true)) ∧
    (s.history.accepted.map (·.1.ticket)).Nodup ∧
    (∀ call, s.Returns call (.pushed false) → ∀ value, (call, value) ∉ s.history.accepted) ∧
    (∀ call value, (call, value) ∈ s.history.popped ↔ s.Returns call (.popped (some value))) ∧
    (s.history.popped.map (·.1.ticket)).Nodup ∧
    (capacity ≠ 0 → s.queue.queue.length ≤ capacity) ∧
    (s.queue.closed = true →
      (∀ s', (queueSystem Tid α capacity).Leads s s' →
        s'.history.accepted = s.history.accepted) ∧
      ∃! call, s.Returns call (.closed true)) ∧
    ∀ call : QueueCall α, call.op = .waitPop → s.Returns call (.popped none) →
      s.queue.closed = true ∧
        s.history.popped.map Prod.snd = s.history.accepted.map Prod.snd := by
  have hcalls := callInvariant_of_reachable h
  have hfifo := fifoInvariant_of_reachable h
  have haccepted (call : QueueCall α) (value : α) : (call, value) ∈ s.history.accepted ↔
      call.op.value = some value ∧ s.Returns call (.pushed true) := by
    rw [mem_accepted, hcalls.recorded]
  have hpopped (call : QueueCall α) (value : α) : (call, value) ∈ s.history.popped ↔
      s.Returns call (.popped (some value)) := by
    rw [mem_popped, hcalls.recorded]
  refine ⟨hfifo.fifo, haccepted, ?_, ?_, hpopped, ?_, hfifo.bounded, ?_, ?_⟩
  · refine hcalls.nodup_filterMap ?_
    intro entry entry' hentry
    unfold QueueHistory.acceptedBy at hentry
    split at hentry
    case h_1 =>
      obtain ⟨value, -, rfl⟩ := Option.map_eq_some_iff.mp hentry
      rfl
    case h_2 => cases hentry
  · intro call hrefused value hmem
    have hpushed := (hcalls.recorded _ _).mpr ((haccepted call value).mp hmem).2
    cases hcalls.result_unique ((hcalls.recorded _ _).mpr hrefused) hpushed
  · refine hcalls.nodup_filterMap ?_
    intro entry entry' hentry
    unfold QueueHistory.poppedBy at hentry
    split at hentry
    case h_1 => exact Option.some.inj hentry ▸ rfl
    case h_2 => cases hentry
  · intro hclosed
    refine ⟨fun s' hleads => accepted_of_leads hclosed hleads, ?_⟩
    have hone := hfifo.closedOnce
    rw [if_pos hclosed, List.countP_eq_length_filter, List.length_eq_one_iff] at hone
    obtain ⟨⟨call, returned⟩, honly⟩ := hone
    have hmem : (call, returned) ∈ s.history.sections.filter isFirstClose :=
      honly ▸ List.mem_singleton_self _
    obtain ⟨hcall, hfirst⟩ := List.mem_filter.mp hmem
    obtain rfl : returned = .closed true := by
      cases returned <;> simp_all [isFirstClose]
    refine ⟨call, (hcalls.recorded _ _).mp hcall, ?_⟩
    intro call' hcall'
    have hmem' : (call', .closed true) ∈ s.history.sections.filter isFirstClose :=
      List.mem_filter.mpr ⟨(hcalls.recorded _ _).mpr hcall', rfl⟩
    rw [honly] at hmem'
    exact (Prod.mk.inj (List.mem_singleton.mp hmem')).1
  · intro call hop hnone
    obtain ⟨hclosed, hempty⟩ :=
      hfifo.drained call hop ((hcalls.recorded _ _).mpr hnone)
    refine ⟨hclosed, ?_⟩
    have := hfifo.fifo
    rwa [hempty, List.append_nil] at this

/-- A full queue of one slot: the producer that sleeps on it gets its element in after a pop, a
`try_push` is refused meanwhile, and after `close` a consumer drains what is left. -/
theorem closable_bounded_fifo_handover :
    ∃ s, (queueSystem (Fin 3) ℕ 1).Reachable s ∧ s.queue.closed = true ∧
      s.history.accepted.map Prod.snd = [7, 8] ∧
      s.history.popped.map Prod.snd ++ s.queue.queue = s.history.accepted.map Prod.snd ∧
      s.queue.queue.length ≤ 1 := by
  obtain ⟨s, hs, hp⟩ := (queueSystem (Fin 3) ℕ 1).exists_reachable_of_run
    { queue := { capacity := 1 } }
    [.call 0 (.push 7), .enter 0 false, .unlock 0, .notify 0 none, .ret 0,
      .call 0 (.push 8), .enter 0 false, .call 1 (.tryPush 9), .enter 1 false, .unlock 1, .ret 1,
      .call 2 .waitPop, .enter 2 false, .unlock 2, .notify 2 (some 0), .ret 2,
      .enter 0 false, .unlock 0, .call 1 .close, .enter 1 false, .unlock 1, .notify 1 none,
      .notify 1 none, .ret 1, .notify 0 none, .ret 0,
      .call 2 .waitPop, .enter 2 false]
    (fun s => s.queue.closed && s.history.accepted.map Prod.snd == [7, 8]) rfl (by decide)
  simp only [Bool.and_eq_true, beq_iff_eq] at hp
  have hfifo := closable_bounded_fifo hs
  exact ⟨s, hs, hp.1, hp.2, hfifo.1, hfifo.2.2.2.2.2.2.1 (by decide)⟩

end QueueState

end RobotMiddleware
