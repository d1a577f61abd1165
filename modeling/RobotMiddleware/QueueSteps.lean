import RobotMiddleware.QueueModel

/-! What one section and one step of the queue can do, said once. -/
namespace RobotMiddleware
open ConditionVariable

def QueueOp.value {α : Type} : QueueOp α → Option α
  | .push value | .emplace value | .tryPush value | .tryEmplace value => some value
  | _ => none

def QueueOp.pops {α : Type} : QueueOp α → Bool
  | .tryPop | .waitPop | .waitPopFor => true
  | _ => false

namespace ThreadSafeQueue
variable {α : Type} {q : ThreadSafeQueue α}

theorem full_iff : q.full = true ↔ q.capacity ≠ 0 ∧ q.capacity ≤ q.queue.length := by
  simp [full]

theorem length_lt_of_not_full (h : q.full = false) (hcap : q.capacity ≠ 0) :
    q.queue.length < q.capacity := by
  by_contra hge
  have hfull : q.full = true := full_iff.mpr ⟨hcap, Nat.le_of_not_lt hge⟩
  rw [h] at hfull
  cases hfull

inductive SectionView (q : ThreadSafeQueue α) (op : QueueOp α) : QueueSection α → Prop
  | awaitSlot (value : α) : op.value = some value → q.closed = false → q.full = true →
      SectionView q op (.wait .notFull)
  | awaitElement : op.pops = true → q.closed = false → q.queue = [] →
      SectionView q op (.wait .notEmpty)
  | pushed (value : α) : op.value = some value → q.closed = false → q.full = false →
      SectionView q op (.done { q with queue := q.queue ++ [value] } (.pushed true) [.one .notEmpty])
  | refused (value : α) : op.value = some value → q.closed = true ∨ q.full = true →
      SectionView q op (.done q (.pushed false) [])
  | popped (value : α) (rest : List α) : op.pops = true → q.queue = value :: rest →
      SectionView q op (.done { q with queue := rest } (.popped (some value)) [.one .notFull])
  | gaveUp : op.pops = true → q.queue = [] → (op = .waitPop → q.closed = true) →
      SectionView q op (.done q (.popped none) [])
  | closed : op = .close → q.closed = false →
      SectionView q op (.done q.close (.closed true) [.all .notEmpty, .all .notFull])
  | closedAgain : op = .close → q.closed = true →
      SectionView q op (.done q (.closed false) [])

theorem pushImpl_view (op : QueueOp α) (value : α) (hop : op.value = some value) :
    SectionView q op (q.pushImpl value) := by
  cases hclosed : q.closed with
  | true =>
    have heq : q.pushImpl value = .done q (.pushed false) [] := by simp [pushImpl, hclosed]
    exact heq ▸ .refused value hop (.inl hclosed)
  | false =>
    cases hfull : q.full with
    | true =>
      have heq : q.pushImpl value = .wait .notFull := by simp [pushImpl, hclosed, hfull]
      exact heq ▸ .awaitSlot value hop hclosed hfull
    | false =>
      have heq : q.pushImpl value =
          .done { q with queue := q.queue ++ [value] } (.pushed true) [.one .notEmpty] := by
        simp [pushImpl, hclosed, hfull]
      exact heq ▸ .pushed value hop hclosed hfull

theorem tryPushImpl_view (op : QueueOp α) (value : α) (hop : op.value = some value) :
    SectionView q op (q.tryPushImpl value) := by
  cases hrefused : q.closed || q.full with
  | true =>
    have heq : q.tryPushImpl value = .done q (.pushed false) [] := by
      simp [tryPushImpl, tryPush, hrefused]
    exact heq ▸ .refused value hop (Bool.or_eq_true_iff.mp hrefused)
  | false =>
    have heq : q.tryPushImpl value =
        .done { q with queue := q.queue ++ [value] } (.pushed true) [.one .notEmpty] := by
      simp [tryPushImpl, tryPush, hrefused]
    obtain ⟨hclosed, hfull⟩ := Bool.or_eq_false_iff.mp hrefused
    exact heq ▸ .pushed value hop hclosed hfull

theorem waitPopSection_view (op : QueueOp α) (hop : op.pops = true) :
    SectionView q op q.waitPopSection := by
  cases hqueue : q.queue with
  | cons value rest =>
    have heq : q.waitPopSection =
        .done { q with queue := rest } (.popped (some value)) [.one .notFull] := by
      simp [waitPopSection, waitPop, hqueue]
    exact heq ▸ .popped value rest hop hqueue
  | nil =>
    cases hclosed : q.closed with
    | true =>
      have heq : q.waitPopSection = .done q (.popped none) [] := by
        simp [waitPopSection, waitPop, hqueue, hclosed]
      exact heq ▸ .gaveUp hop hqueue fun _ => hclosed
    | false =>
      have heq : q.waitPopSection = .wait .notEmpty := by
        simp [waitPopSection, waitPop, hqueue, hclosed]
      exact heq ▸ .awaitElement hop hclosed hqueue

theorem sectionOf_view (q : ThreadSafeQueue α) (timedOut : Bool) (op : QueueOp α) :
    SectionView q op (q.sectionOf timedOut op) := by
  cases op with
  | push value => exact pushImpl_view _ value rfl
  | emplace value => exact pushImpl_view _ value rfl
  | tryPush value => exact tryPushImpl_view _ value rfl
  | tryEmplace value => exact tryPushImpl_view _ value rfl
  | tryPop =>
    show SectionView q _ q.tryPopSection
    cases hqueue : q.queue with
    | nil =>
      have heq : q.tryPopSection = .done q (.popped none) [] := by simp [tryPopSection, hqueue]
      exact heq ▸ .gaveUp rfl hqueue (fun h => by cases h)
    | cons value rest =>
      have heq : q.tryPopSection =
          .done { q with queue := rest } (.popped (some value)) [.one .notFull] := by
        simp [tryPopSection, hqueue]
      exact heq ▸ .popped value rest rfl hqueue
  | waitPop => exact waitPopSection_view _ rfl
  | waitPopFor =>
    show SectionView q _ (q.waitPopForSection timedOut)
    unfold waitPopForSection
    split
    case isTrue hover =>
      simp only [Bool.and_eq_true, List.isEmpty_iff] at hover
      exact .gaveUp rfl hover.1.2 (fun h => by cases h)
    case isFalse => exact waitPopSection_view _ rfl
  | close =>
    show SectionView q _ q.closeSection
    cases hclosed : q.closed with
    | true =>
      have heq : q.closeSection = .done q (.closed false) [] := by simp [closeSection, hclosed]
      exact heq ▸ .closedAgain rfl hclosed
    | false =>
      have heq : q.closeSection =
          .done q.close (.closed true) [.all .notEmpty, .all .notFull] := by
        simp [closeSection, hclosed]
      exact heq ▸ .closed rfl hclosed

end ThreadSafeQueue

namespace QueueState
variable {Tid α : Type} [DecidableEq Tid] {s s' : QueueState Tid α} {t : Tid}

section WaitSets
omit [DecidableEq Tid]
variable (s : QueueState Tid α) (c c' : QueueCondition) (w : WaitSet Tid)

@[simp] theorem waitSet_setWaitSet :
    (s.setWaitSet c w).waitSet c' = if c' = c then w else s.waitSet c' := by
  cases c <;> cases c' <;> rfl

@[simp] theorem setWaitSet_queue : (s.setWaitSet c w).queue = s.queue := by cases c <;> rfl

@[simp] theorem setWaitSet_owner : (s.setWaitSet c w).owner = s.owner := by cases c <;> rfl

@[simp] theorem setWaitSet_threads : (s.setWaitSet c w).threads = s.threads := by cases c <;> rfl

@[simp] theorem setWaitSet_history : (s.setWaitSet c w).history = s.history := by cases c <;> rfl

end WaitSets

section Phases
variable (s : QueueState Tid α) (t : Tid) (phase : QueuePhase α)

@[simp] theorem setPhase_queue : (s.setPhase t phase).queue = s.queue := rfl

@[simp] theorem setPhase_owner : (s.setPhase t phase).owner = s.owner := rfl

@[simp] theorem setPhase_history : (s.setPhase t phase).history = s.history := rfl

@[simp] theorem setPhase_waitSet (c : QueueCondition) :
    (s.setPhase t phase).waitSet c = s.waitSet c := by cases c <;> rfl

@[simp] theorem setPhase_threads (u : Tid) :
    (s.setPhase t phase).threads u = if u = t then phase else s.threads u := by
  simp only [setPhase, Function.update_apply]

end Phases

def Enters (s : QueueState Tid α) (t : Tid) (call : QueueCall α) : Prop :=
  s.threads t = .locking call ∨
    ∃ c, s.threads t = .waiting call c ∧ t ∉ (s.waitSet c).asleep

inductive StepView (s : QueueState Tid α) : QueueAction Tid α → QueueState Tid α → Prop
  | called (t : Tid) (op : QueueOp α) : s.threads t = .idle →
      StepView s (.call t op) (setPhase
        { s with history := { s.history with calls := s.history.calls + 1 } } t
        (.locking ⟨s.history.calls, op⟩))
  | slept (t : Tid) (timedOut : Bool) (call : QueueCall α) (c : QueueCondition) :
      s.owner = none → s.Enters t call → s.queue.SectionView call.op (.wait c) →
      StepView s (.enter t timedOut)
        ((s.setWaitSet c ((s.waitSet c).sleep t)).setPhase t (.waiting call c))
  | finished (t : Tid) (timedOut : Bool) (call : QueueCall α) (q : ThreadSafeQueue α)
      (returned : QueueReturn α) (notifies : List QueueNotify) :
      s.owner = none → s.Enters t call →
      s.queue.SectionView call.op (.done q returned notifies) →
      StepView s (.enter t timedOut) (setPhase { s with
        queue := q
        owner := some t
        history := { s.history with sections := s.history.sections ++ [(call, returned)] } } t
        (.leaving call returned notifies))
  | unlocked (t : Tid) (call : QueueCall α) (returned : QueueReturn α)
      (notifies : List QueueNotify) : s.threads t = .leaving call returned notifies →
      StepView s (.unlock t)
        (setPhase { s with owner := none } t (.notifying call returned notifies))
  | notifiedOne (t u : Tid) (call : QueueCall α) (returned : QueueReturn α) (c : QueueCondition)
      (notifies : List QueueNotify) :
      s.threads t = .notifying call returned (.one c :: notifies) → u ∈ (s.waitSet c).asleep →
      StepView s (.notify t (some u)) ((s.setWaitSet c ((s.waitSet c).wake u)).setPhase t
        (.notifying call returned notifies))
  | notifiedNone (t : Tid) (call : QueueCall α) (returned : QueueReturn α) (c : QueueCondition)
      (notifies : List QueueNotify) :
      s.threads t = .notifying call returned (.one c :: notifies) → (s.waitSet c).asleep = [] →
      StepView s (.notify t none) ((s.setWaitSet c (s.waitSet c)).setPhase t
        (.notifying call returned notifies))
  | notifiedAll (t : Tid) (target : Option Tid) (call : QueueCall α) (returned : QueueReturn α)
      (c : QueueCondition) (notifies : List QueueNotify) :
      s.threads t = .notifying call returned (.all c :: notifies) →
      StepView s (.notify t target) ((s.setWaitSet c (s.waitSet c).notifyAll).setPhase t
        (.notifying call returned notifies))
  | woke (t : Tid) (call : QueueCall α) (c : QueueCondition) : s.threads t = .waiting call c →
      t ∈ (s.waitSet c).asleep →
      StepView s (.wake t) (s.setWaitSet c ((s.waitSet c).wake t))
  | returned (t : Tid) (call : QueueCall α) (returned : QueueReturn α) :
      s.threads t = .notifying call returned [] →
      StepView s (.ret t) (setPhase
        { s with history := { s.history with returns := s.history.returns ++ [(call, returned)] } }
        t .idle)

theorem runSection_view {call : QueueCall α} (timedOut sectionTime : Bool)
    (howner : s.owner = none) (h : s.Enters t call) :
    StepView s (.enter t timedOut) (s.runSection t call sectionTime) := by
  have hview := s.queue.sectionOf_view sectionTime call.op
  unfold runSection
  split
  case h_1 c hsection => exact .slept t timedOut call c howner h (hsection ▸ hview)
  case h_2 q returned notifies hsection =>
    exact .finished t timedOut call q returned notifies howner h (hsection ▸ hview)

theorem step_view {a : QueueAction Tid α} (h : s.step a = some s') : StepView s a s' := by
  cases a with
  | call t op =>
    simp only [step] at h
    split at h
    case h_1 hidle => exact Option.some.inj h ▸ .called t op hidle
    case h_2 => cases h
  | enter t timedOut =>
    simp only [step] at h
    obtain ⟨howner, h⟩ := Option.ite_none_right_eq_some.mp h
    split at h
    case h_1 call hphase => exact Option.some.inj h ▸ runSection_view timedOut _ howner (.inl hphase)
    case h_2 call c hphase =>
      obtain ⟨hwoken, h⟩ := Option.ite_none_left_eq_some.mp h
      exact Option.some.inj h ▸ runSection_view timedOut _ howner (.inr ⟨c, hphase, hwoken⟩)
    case h_3 => cases h
  | unlock t =>
    simp only [step] at h
    split at h
    case h_1 call returned notifies hphase =>
      exact Option.some.inj h ▸ .unlocked t call returned notifies hphase
    case h_2 => cases h
  | notify t target =>
    simp only [step] at h
    split at h
    case h_1 call returned c notifies hphase =>
      obtain ⟨w, hw, rfl⟩ := Option.map_eq_some_iff.mp h
      rcases WaitSet.notifyOne_eq_some hw with ⟨u, rfl, hu, rfl⟩ | ⟨rfl, hempty, rfl⟩
      · exact .notifiedOne t u call returned c notifies hphase hu
      · exact .notifiedNone t call returned c notifies hphase hempty
    case h_2 call returned c notifies hphase =>
      exact Option.some.inj h ▸ .notifiedAll t target call returned c notifies hphase
    case h_3 => cases h
  | wake t =>
    simp only [step] at h
    split at h
    case h_1 call c hphase =>
      obtain ⟨hasleep, h⟩ := Option.ite_none_right_eq_some.mp h
      exact Option.some.inj h ▸ .woke t call c hphase hasleep
    case h_2 => cases h
  | ret t =>
    simp only [step] at h
    split at h
    case h_1 call returned hphase => exact Option.some.inj h ▸ .returned t call returned hphase
    case h_2 => cases h

end QueueState

end RobotMiddleware
