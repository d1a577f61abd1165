import RobotMiddleware.ConditionVariable
import RobotMiddleware.ThreadPoolModel

/-! `ThreadSafeQueue` with its mutex and its two condition variables, used by any number of
threads. A call is the section under `mutex_`, the release of `mutex_`, and the notification
that it makes afterwards. Moving an element and growing the `deque` do not throw. -/
namespace RobotMiddleware
open ConditionVariable

inductive QueueCondition
  | notEmpty
  | notFull
  deriving DecidableEq

inductive QueueNotify
  | one (c : QueueCondition)
  | all (c : QueueCondition)
  deriving DecidableEq

def QueueNotify.condition : QueueNotify → QueueCondition
  | .one c | .all c => c

inductive QueueReturn (α : Type)
  | pushed (accepted : Bool)
  | popped (value : Option α)
  | closed (first : Bool)
  deriving DecidableEq

/-- What the section under `mutex_` comes to: its predicate is false and the thread goes to
sleep, or it has a result and leaves notifications to make. -/
inductive QueueSection (α : Type)
  | wait (c : QueueCondition)
  | done (q : ThreadSafeQueue α) (returned : QueueReturn α) (notifies : List QueueNotify)

namespace ThreadSafeQueue
variable {α : Type} (q : ThreadSafeQueue α)

def pushImpl (value : α) : QueueSection α :=
  if q.closed || !q.full then
    if q.closed then .done q (.pushed false) []
    else .done { q with queue := q.queue ++ [value] } (.pushed true) [.one .notEmpty]
  else .wait .notFull

def emplace (value : α) : QueueSection α := q.pushImpl value

def tryPushImpl (value : α) : QueueSection α :=
  match q.tryPush value with
  | some q' => .done q' (.pushed true) [.one .notEmpty]
  | none => .done q (.pushed false) []

def tryEmplace (value : α) : QueueSection α := q.tryPushImpl value

def tryPopSection : QueueSection α :=
  match q.queue with
  | [] => .done q (.popped none) []
  | value :: rest => .done { q with queue := rest } (.popped (some value)) [.one .notFull]

def waitPopSection : QueueSection α :=
  match q.waitPop with
  | some (q', some value) => .done q' (.popped (some value)) [.one .notFull]
  | some (q', none) => .done q' (.popped none) []
  | none => .wait .notEmpty

/-- `wait_pop_for`: when its time is over it looks once more and gives up. -/
def waitPopForSection (timedOut : Bool) : QueueSection α :=
  if !q.closed && q.queue.isEmpty && timedOut then .done q (.popped none) []
  else q.waitPopSection

def closeSection : QueueSection α :=
  if q.closed then .done q (.closed false) []
  else .done q.close (.closed true) [.all .notEmpty, .all .notFull]

end ThreadSafeQueue

inductive QueueOp (α : Type)
  | push (value : α)
  | emplace (value : α)
  | tryPush (value : α)
  | tryEmplace (value : α)
  | tryPop
  | waitPop
  | waitPopFor
  | close
  deriving DecidableEq

def ThreadSafeQueue.sectionOf {α : Type} (q : ThreadSafeQueue α) (timedOut : Bool) :
    QueueOp α → QueueSection α
  | .push value => q.pushImpl value
  | .emplace value => q.emplace value
  | .tryPush value => q.tryPushImpl value
  | .tryEmplace value => q.tryEmplace value
  | .tryPop => q.tryPopSection
  | .waitPop => q.waitPopSection
  | .waitPopFor => q.waitPopForSection timedOut
  | .close => q.closeSection

structure QueueCall (α : Type) where
  ticket : ℕ
  op : QueueOp α
  deriving DecidableEq

/-- Where a thread is in its call. In `waiting` it sleeps while it is in the wait set, and has
woken up and not looked yet once it is out of it. -/
inductive QueuePhase (α : Type)
  | idle
  | locking (call : QueueCall α)
  | waiting (call : QueueCall α) (c : QueueCondition)
  | leaving (call : QueueCall α) (returned : QueueReturn α) (notifies : List QueueNotify)
  | notifying (call : QueueCall α) (returned : QueueReturn α) (notifies : List QueueNotify)
  deriving DecidableEq

/-- The calls made, what their sections came to in the order of the sections, and what they
returned. -/
structure QueueHistory (α : Type) where
  calls : ℕ := 0
  sections : List (QueueCall α × QueueReturn α) := []
  returns : List (QueueCall α × QueueReturn α) := []
  deriving DecidableEq

structure QueueState (Tid α : Type) where
  queue : ThreadSafeQueue α := {}
  owner : Option Tid := none
  notEmpty : WaitSet Tid := {}
  notFull : WaitSet Tid := {}
  threads : Tid → QueuePhase α := fun _ => .idle
  history : QueueHistory α := {}

inductive QueueAction (Tid α : Type)
  | call (t : Tid) (op : QueueOp α)
  | enter (t : Tid) (timedOut : Bool)
  | unlock (t : Tid)
  | notify (t : Tid) (target : Option Tid)
  | wake (t : Tid)
  | ret (t : Tid)

namespace QueueState
variable {Tid α : Type} [DecidableEq Tid]

def waitSet (s : QueueState Tid α) : QueueCondition → WaitSet Tid
  | .notEmpty => s.notEmpty
  | .notFull => s.notFull

def setWaitSet (s : QueueState Tid α) (c : QueueCondition) (w : WaitSet Tid) :
    QueueState Tid α :=
  match c with
  | .notEmpty => { s with notEmpty := w }
  | .notFull => { s with notFull := w }

def setPhase (s : QueueState Tid α) (t : Tid) (phase : QueuePhase α) : QueueState Tid α :=
  { s with threads := Function.update s.threads t phase }

/-- The section under `mutex_`. A thread that goes to sleep lets the mutex go. -/
def runSection (s : QueueState Tid α) (t : Tid) (call : QueueCall α) (timedOut : Bool) :
    QueueState Tid α :=
  match s.queue.sectionOf timedOut call.op with
  | .wait c => (s.setWaitSet c ((s.waitSet c).sleep t)).setPhase t (.waiting call c)
  | .done q returned notifies =>
    setPhase { s with
      queue := q
      owner := some t
      history := { s.history with sections := s.history.sections ++ [(call, returned)] } } t
      (.leaving call returned notifies)

def step (s : QueueState Tid α) : QueueAction Tid α → Option (QueueState Tid α)
  | .call t op =>
    match s.threads t with
    | .idle =>
      some (setPhase { s with history := { s.history with calls := s.history.calls + 1 } } t
        (.locking ⟨s.history.calls, op⟩))
    | _ => none
  -- a thread that has woken up looks at its condition again
  | .enter t timedOut =>
    if s.owner = none then
      match s.threads t with
      | .locking call => some (s.runSection t call false)
      | .waiting call c =>
        if t ∈ (s.waitSet c).asleep then none else some (s.runSection t call timedOut)
      | _ => none
    else none
  | .unlock t =>
    match s.threads t with
    | .leaving call returned notifies =>
      some (setPhase { s with owner := none } t (.notifying call returned notifies))
    | _ => none
  -- notified after the unlock, so other sections may come between
  | .notify t target =>
    match s.threads t with
    | .notifying call returned (.one c :: notifies) =>
      ((s.waitSet c).notifyOne target).map fun w =>
        (s.setWaitSet c w).setPhase t (.notifying call returned notifies)
    | .notifying call returned (.all c :: notifies) =>
      some ((s.setWaitSet c (s.waitSet c).notifyAll).setPhase t (.notifying call returned notifies))
    | _ => none
  | .wake t =>
    -- spurious, or the time of a `wait_for` is over
    match s.threads t with
    | .waiting _ c =>
      if t ∈ (s.waitSet c).asleep then some (s.setWaitSet c ((s.waitSet c).wake t)) else none
    | _ => none
  | .ret t =>
    match s.threads t with
    | .notifying call returned [] =>
      some (setPhase
        { s with history := { s.history with returns := s.history.returns ++ [(call, returned)] } }
        t .idle)
    | _ => none

end QueueState

def queueSystem (Tid α : Type) [DecidableEq Tid] (capacity : ℕ) :
    TransitionSystem (QueueState Tid α) (QueueAction Tid α) where
  init s := s = { queue := { capacity := capacity } }
  step := QueueState.step

end RobotMiddleware
