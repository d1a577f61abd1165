import RobotMiddleware.ThreadPoolModel

/-! What one step of the pool can do, said once, with the simp lemmas of its operations. -/
namespace RobotMiddleware

theorem WorkerState.hasLeft_iff {Task : Type} {loop : WorkerState Task} :
    loop.hasLeft = true ↔ loop = .left := by
  cases loop <;> simp [WorkerState.hasLeft]

def WorkerState.holding {Task : Type} : WorkerState Task → Option (PostedTask Task)
  | .running posted | .failing posted | .completing posted _ => some posted
  | _ => .none

/-- The post that a caller has not pushed, nor will push any more after a roll-back. -/
def PoolCall.unpushed {Tid Task : Type} : PoolCall Tid Task → Option (PostedTask Task)
  | .counting posted | .pushing posted | .rollingBack posted _ => some posted
  | _ => .none

/-- The caller is between the increment of `submitted` and its push or roll-back. -/
def PoolCall.counted {Tid Task : Type} : PoolCall Tid Task → Bool
  | .pushing _ | .rollingBack _ _ => true
  | _ => false

theorem PoolThread.canCall_iff {Tid Task : Type} (th : PoolThread Tid Task) :
    th.canCall = true ↔ th.call = .none ∧ (th.loop = .none ∨ ∃ posted, th.loop = .running posted) := by
  rcases th with ⟨loop, call⟩
  cases call <;> cases loop <;> simp [canCall]

namespace ThreadSafeQueue
variable {α : Type} {q q' : ThreadSafeQueue α}

theorem tryPush_eq_some {value : α} (h : q.tryPush value = some q') :
    q.closed = false ∧ q' = { q with queue := q.queue ++ [value] } := by
  unfold tryPush at h
  split at h
  case isTrue => cases h
  case isFalse hopen =>
    simp only [Bool.or_eq_true, not_or, Bool.not_eq_true] at hopen
    exact ⟨hopen.1, (Option.some.inj h).symm⟩

theorem waitPop_eq_some {r : Option α} (h : q.waitPop = some (q', r)) :
    (∃ value rest, q.queue = value :: rest ∧ q' = { q with queue := rest } ∧ r = some value) ∨
      (q.queue = [] ∧ q.closed = true ∧ q' = q ∧ r = none) := by
  unfold waitPop at h
  split at h
  case h_1 value rest hqueue =>
    obtain ⟨rfl, rfl⟩ := Prod.mk.inj (Option.some.inj h)
    exact .inl ⟨value, rest, hqueue, rfl, rfl⟩
  case h_2 hqueue =>
    split at h
    case isTrue hclosed =>
      obtain ⟨rfl, rfl⟩ := Prod.mk.inj (Option.some.inj h)
      exact .inr ⟨hqueue, hclosed, rfl, rfl⟩
    case isFalse => cases h

end ThreadSafeQueue

namespace PoolState
variable {Tid Task : Type} [DecidableEq Tid] (threads : Tid → PoolThread Tid Task) (t u : Tid)

@[simp] theorem setLoop_loop (loop : WorkerState Task) :
    (setLoop threads t loop u).loop = if u = t then loop else (threads u).loop := by
  by_cases h : u = t
  · subst h; simp [setLoop]
  · simp [setLoop, h]

@[simp] theorem setLoop_call (loop : WorkerState Task) :
    (setLoop threads t loop u).call = (threads u).call := by
  by_cases h : u = t
  · subst h; simp [setLoop]
  · simp [setLoop, h]

@[simp] theorem setCall_call (call : PoolCall Tid Task) :
    (setCall threads t call u).call = if u = t then call else (threads u).call := by
  by_cases h : u = t
  · subst h; simp [setCall]
  · simp [setCall, h]

@[simp] theorem setCall_loop (call : PoolCall Tid Task) :
    (setCall threads t call u).loop = (threads u).loop := by
  by_cases h : u = t
  · subst h; simp [setCall]
  · simp [setCall, h]

variable {threads t u}

inductive StepView (s : PoolState Tid Task) : PoolAction Tid Task → PoolState Tid Task → Prop
  | refused (t : Tid) (task : Option Task) : (s.threads t).canCall = true →
      task = none ∨ s.pool.accepting = false →
      StepView s (.post t task) (returnPost
        { s with history := { s.history with posts := s.history.posts + 1 } } t s.history.posts
        .refused)
  | posting (t : Tid) (task : Task) : (s.threads t).canCall = true → s.pool.accepting = true →
      StepView s (.post t (some task)) { s with
        threads := setCall s.threads t (.counting ⟨s.history.posts, task⟩)
        history := { s.history with posts := s.history.posts + 1 } }
  | counted (t : Tid) (posted : PostedTask Task) : (s.threads t).call = .counting posted →
      StepView s (.count t) { s with
        pool := { s.pool with submitted := s.pool.submitted + 1 }
        threads := setCall s.threads t (.pushing posted) }
  | pushed (t : Tid) (posted : PostedTask Task) : (s.threads t).call = .pushing posted →
      s.pool.tasks.closed = false →
      StepView s (.push t false) { s with
        pool := { s.pool with tasks := { s.pool.tasks with
          queue := s.pool.tasks.queue ++ [posted] } }
        threads := setCall s.threads t (.pushed posted)
        history := { s.history with pushed := s.history.pushed ++ [posted.ticket] } }
  | notPushed (t : Tid) (posted : PostedTask Task) (allocationFails threw : Bool) :
      (s.threads t).call = .pushing posted →
      StepView s (.push t allocationFails) { s with
        threads := setCall s.threads t (.rollingBack posted threw) }
  | postReturned (t : Tid) (posted : PostedTask Task) : (s.threads t).call = .pushed posted →
      StepView s (.postReturn t) (s.returnPost t posted.ticket .accepted)
  | rolledBack (t : Tid) (posted : PostedTask Task) (threw : Bool) :
      (s.threads t).call = .rollingBack posted threw →
      StepView s (.rollback t) (returnPost
        { s with pool := { s.pool with submitted := s.pool.submitted - 1 } } t posted.ticket
        (if threw then .threw else .refused))
  | popped (t : Tid) (posted : PostedTask Task) (rest : List (PostedTask Task)) :
      (s.threads t).loop = .popping → s.pool.tasks.queue = posted :: rest →
      StepView s (.pop t) { s with
        pool := { s.pool with tasks := { s.pool.tasks with queue := rest } }
        threads := setLoop s.threads t (.running posted)
        history := { s.history with started := s.history.started ++ [posted.ticket] } }
  | leaves (t : Tid) : (s.threads t).loop = .popping → s.pool.tasks.queue = [] →
      s.pool.tasks.closed = true →
      StepView s (.pop t) { s with threads := setLoop s.threads t .left }
  | taskEnd (t : Tid) (posted : PostedTask Task) (threw : Bool) : (s.threads t).call = .none →
      (s.threads t).loop = .running posted →
      StepView s (.taskEnd t threw) { s with
        threads := setLoop s.threads t
          (if threw then .failing posted else .completing posted false)
        history := { s.history with finished := s.history.finished ++ [posted.ticket] } }
  | countedFailed (t : Tid) (posted : PostedTask Task) : (s.threads t).loop = .failing posted →
      StepView s (.countFailed t) { s with
        pool := { s.pool with failed := s.pool.failed + 1 }
        threads := setLoop s.threads t (.completing posted true) }
  | countedCompleted (t : Tid) (posted : PostedTask Task) (threw : Bool) :
      (s.threads t).loop = .completing posted threw →
      StepView s (.countCompleted t) { s with
        pool := { s.pool with completed := s.pool.completed + 1 }
        threads := setLoop s.threads t .popping }
  | shutdown (t : Tid) : (s.threads t).canCall = true →
      StepView s (.shutdown t) { s with
        pool := { s.pool with accepting := false }
        threads := setCall s.threads t .closing }
  | closed (t : Tid) : (s.threads t).call = .closing →
      StepView s (.close t) { s with
        pool := { s.pool with tasks := s.pool.tasks.close }
        threads := setCall s.threads t .entering }
  | entersFinished (t : Tid) : (s.threads t).call = .entering → s.pool.shutdownFinished = true →
      StepView s (.enter t) (s.returnShutdown t)
  | entersAsWorker (t : Tid) : (s.threads t).call = .entering →
      s.pool.shutdownFinished = false → s.pool.shutdownInProgress = true →
      (s.threads t).callerIsWorker = true → StepView s (.enter t) (s.returnShutdown t)
  | waits (t : Tid) : (s.threads t).call = .entering → s.pool.shutdownFinished = false →
      s.pool.shutdownInProgress = true → (s.threads t).callerIsWorker = false →
      StepView s (.enter t) { s with threads := setCall s.threads t .waitingFinished }
  | released (t : Tid) : (s.threads t).call = .entering → s.pool.shutdownFinished = false →
      s.pool.shutdownInProgress = false →
      StepView s (.enter t) { s with
        pool := { s.pool with shutdownInProgress := true, workers := [] }
        threads := setCall s.threads t (.joining s.pool.workers)
        history := { s.history with releasedBy := some t } }
  | joined (t worker : Tid) (handles : List Tid) :
      (s.threads t).call = .joining (worker :: handles) →
      worker = t ∨ (s.threads worker).loop = .left →
      StepView s (.join t) { s with threads := setCall s.threads t (.joining handles) }
  | finished (t : Tid) : (s.threads t).call = .joining [] →
      StepView s (.finishShutdown t) (returnShutdown
        { s with
          pool := { s.pool with shutdownFinished := true, shutdownInProgress := false } } t)
  | awoke (t : Tid) : (s.threads t).call = .waitingFinished → s.pool.shutdownFinished = true →
      StepView s (.awake t) (s.returnShutdown t)

theorem step_view {s s' : PoolState Tid Task} {a : PoolAction Tid Task}
    (h : s.step a = some s') : StepView s a s' := by
  cases a with
  | post t task =>
    simp only [step, Option.ite_none_right_eq_some] at h
    obtain ⟨hcall, h⟩ := h
    cases task with
    | none => cases h; exact .refused t none hcall (.inl rfl)
    | some task =>
      cases haccepting : s.pool.accepting with
      | true =>
        simp only [haccepting, Option.some.injEq] at h
        cases h
        exact .posting t task hcall haccepting
      | false =>
        simp only [haccepting, Option.some.injEq] at h
        cases h
        exact .refused t (some task) hcall (.inr haccepting)
  | count t =>
    simp only [step] at h
    split at h
    case h_1 posted hcall => cases h; exact .counted t posted hcall
    case h_2 => cases h
  | push t allocationFails =>
    simp only [step] at h
    split at h
    case h_1 posted hcall =>
      split at h
      case h_1 tasks hpush =>
        obtain ⟨hopen, rfl⟩ := ThreadSafeQueue.tryPush_eq_some hpush
        cases allocationFails with
        | true => cases h; exact .notPushed t posted _ true hcall
        | false => cases h; exact .pushed t posted hcall hopen
      case h_2 => cases h; exact .notPushed t posted _ false hcall
    case h_2 => cases h
  | postReturn t =>
    simp only [step] at h
    split at h
    case h_1 posted hcall => cases h; exact .postReturned t posted hcall
    case h_2 => cases h
  | rollback t =>
    simp only [step] at h
    split at h
    case h_1 posted threw hcall => cases h; exact .rolledBack t posted threw hcall
    case h_2 => cases h
  | pop t =>
    simp only [step] at h
    split at h
    case h_1 tasks posted hloop hpop =>
      cases h
      obtain ⟨value, rest, hqueue, rfl, hvalue⟩ | ⟨-, -, -, hnone⟩ :=
        ThreadSafeQueue.waitPop_eq_some hpop
      · cases hvalue
        exact .popped t posted rest hloop hqueue
      · cases hnone
    case h_2 hloop hpop =>
      cases h
      obtain ⟨_, _, -, -, hvalue⟩ | ⟨hqueue, hclosed, -, -⟩ :=
        ThreadSafeQueue.waitPop_eq_some hpop
      · cases hvalue
      · exact .leaves t hloop hqueue hclosed
    case h_3 => cases h
  | taskEnd t threw =>
    simp only [step] at h
    split at h
    case h_1 posted hcall hloop => cases h; exact .taskEnd t posted threw hcall hloop
    case h_2 => cases h
  | countFailed t =>
    simp only [step] at h
    split at h
    case h_1 posted hloop => cases h; exact .countedFailed t posted hloop
    case h_2 => cases h
  | countCompleted t =>
    simp only [step] at h
    split at h
    case h_1 posted threw hloop => cases h; exact .countedCompleted t posted threw hloop
    case h_2 => cases h
  | shutdown t =>
    simp only [step, Option.ite_none_right_eq_some, Option.some.injEq] at h
    obtain ⟨hcall, rfl⟩ := h
    exact .shutdown t hcall
  | close t =>
    simp only [step] at h
    split at h
    case h_1 hcall => cases h; exact .closed t hcall
    case h_2 => cases h
  | enter t =>
    simp only [step] at h
    split at h
    case h_1 hcall =>
      split at h
      case isTrue hfinished => cases h; exact .entersFinished t hcall hfinished
      case isFalse hunfinished =>
        replace hunfinished : s.pool.shutdownFinished = false := by simpa using hunfinished
        split at h
        case isTrue hprogress =>
          split at h
          case isTrue hworker => cases h; exact .entersAsWorker t hcall hunfinished hprogress hworker
          case isFalse hother =>
            cases h
            exact .waits t hcall hunfinished hprogress (by simpa using hother)
        case isFalse hidle =>
          cases h
          exact .released t hcall hunfinished (by simpa using hidle)
    case h_2 => cases h
  | join t =>
    simp only [step] at h
    split at h
    case h_1 worker handles hcall =>
      split at h
      case isTrue hleft =>
        cases h
        exact .joined t worker handles hcall (hleft.imp_right WorkerState.hasLeft_iff.mp)
      case isFalse => cases h
    case h_2 => cases h
  | finishShutdown t =>
    simp only [step] at h
    split at h
    case h_1 hcall => cases h; exact .finished t hcall
    case h_2 => cases h
  | awake t =>
    simp only [step] at h
    split at h
    case h_1 hcall =>
      simp only [Option.ite_none_right_eq_some, Option.some.injEq] at h
      obtain ⟨hfinished, rfl⟩ := h
      exact .awoke t hcall hfinished
    case h_2 => cases h

end PoolState
end RobotMiddleware
