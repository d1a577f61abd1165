import Mathlib.Tactic
import RobotMiddleware.TransitionSystem

/-! `ThreadPool`: its closable queue, the worker loop, `post` and `shutdown`, run by any number of
threads. Each atomic operation and each section under `workers_mutex_` or the mutex of the
queue is one step. -/
namespace RobotMiddleware

/-- `ThreadSafeQueue` behind its mutex; capacity 0 is unbounded. -/
structure ThreadSafeQueue (α : Type) where
  capacity : ℕ := 0
  queue : List α := []
  closed : Bool := false
  deriving DecidableEq

namespace ThreadSafeQueue
variable {α : Type}

def full (q : ThreadSafeQueue α) : Bool :=
  q.capacity != 0 && decide (q.capacity ≤ q.queue.length)

def tryPush (q : ThreadSafeQueue α) (value : α) : Option (ThreadSafeQueue α) :=
  if q.closed || q.full then none else some { q with queue := q.queue ++ [value] }

/-- `wait_pop` once its wait is over; `none` goes on waiting. -/
def waitPop (q : ThreadSafeQueue α) : Option (ThreadSafeQueue α × Option α) :=
  match q.queue with
  | value :: rest => some ({ q with queue := rest }, some value)
  | [] => if q.closed then some (q, none) else none

def close (q : ThreadSafeQueue α) : ThreadSafeQueue α :=
  { q with closed := true }

end ThreadSafeQueue

/-- The threads that the constructor starts. It throws when asked for none. -/
structure PoolWorkers (Tid : Type) where
  ids : List Tid
  nodup : ids.Nodup
  nonempty : ids ≠ []

structure PostedTask (Task : Type) where
  ticket : ℕ
  task : Task
  deriving DecidableEq

/-- `ThreadPool::State` and the members of `ThreadPool` that `shutdown` uses. -/
structure ThreadPool (Tid Task : Type) where
  tasks : ThreadSafeQueue (PostedTask Task) := {}
  accepting : Bool := true
  submitted : ℕ := 0
  completed : ℕ := 0
  failed : ℕ := 0
  workers : List Tid
  shutdownInProgress : Bool := false
  shutdownFinished : Bool := false
  deriving DecidableEq

inductive WorkerState (Task : Type)
  | none
  | popping
  | running (posted : PostedTask Task)
  | failing (posted : PostedTask Task)
  | completing (posted : PostedTask Task) (threw : Bool)
  | left
  deriving DecidableEq

def WorkerState.hasLeft {Task : Type} : WorkerState Task → Bool
  | .left => true
  | _ => false

inductive PoolCall (Tid Task : Type)
  | none
  | counting (posted : PostedTask Task)
  | pushing (posted : PostedTask Task)
  | pushed (posted : PostedTask Task)
  | rollingBack (posted : PostedTask Task) (threw : Bool)
  | closing
  | entering
  | waitingFinished
  | joining (handles : List Tid)
  deriving DecidableEq

/-- A task runs at the bottom of a worker's stack and may itself call into the pool. -/
structure PoolThread (Tid Task : Type) where
  loop : WorkerState Task := .none
  call : PoolCall Tid Task := .none
  deriving DecidableEq

namespace PoolThread
variable {Tid Task : Type}

/-- User code runs on the thread: outside the loop, or inside a task. -/
def canCall (th : PoolThread Tid Task) : Bool :=
  match th.call, th.loop with
  | .none, .none => true
  | .none, .running _ => true
  | _, _ => false

/-- `active_pool_state == state.get()`. -/
def callerIsWorker (th : PoolThread Tid Task) : Bool :=
  match th.loop with
  | .none | .left => false
  | _ => true

end PoolThread

inductive PostReturn
  | accepted
  | refused
  | threw
  deriving DecidableEq, Repr

/-- What happened so far: the number of `post` calls, what they returned, the tickets pushed,
started and finished, the thread that took over the handles, and the returns of `shutdown`. -/
structure PoolHistory (Tid : Type) where
  posts : ℕ := 0
  returns : List (ℕ × PostReturn) := []
  pushed : List ℕ := []
  started : List ℕ := []
  finished : List ℕ := []
  releasedBy : Option Tid := none
  shutdowns : List Tid := []
  deriving DecidableEq

structure PoolState (Tid Task : Type) where
  pool : ThreadPool Tid Task
  threads : Tid → PoolThread Tid Task
  history : PoolHistory Tid := {}

inductive PoolAction (Tid Task : Type)
  | post (t : Tid) (task : Option Task)
  | count (t : Tid)
  | push (t : Tid) (allocationFails : Bool)
  | postReturn (t : Tid)
  | rollback (t : Tid)
  | pop (t : Tid)
  | taskEnd (t : Tid) (threw : Bool)
  | countFailed (t : Tid)
  | countCompleted (t : Tid)
  | shutdown (t : Tid)
  | close (t : Tid)
  | enter (t : Tid)
  | join (t : Tid)
  | finishShutdown (t : Tid)
  | awake (t : Tid)

namespace PoolState
variable {Tid Task : Type} [DecidableEq Tid]

def setLoop (threads : Tid → PoolThread Tid Task) (t : Tid) (loop : WorkerState Task) :
    Tid → PoolThread Tid Task :=
  Function.update threads t { threads t with loop := loop }

def setCall (threads : Tid → PoolThread Tid Task) (t : Tid) (call : PoolCall Tid Task) :
    Tid → PoolThread Tid Task :=
  Function.update threads t { threads t with call := call }

def returnPost (s : PoolState Tid Task) (t : Tid) (ticket : ℕ) (result : PostReturn) :
    PoolState Tid Task :=
  { s with
    threads := setCall s.threads t .none
    history := { s.history with returns := s.history.returns ++ [(ticket, result)] } }

def returnShutdown (s : PoolState Tid Task) (t : Tid) : PoolState Tid Task :=
  { s with
    threads := setCall s.threads t .none
    history := { s.history with shutdowns := s.history.shutdowns ++ [t] } }

def step (s : PoolState Tid Task) : PoolAction Tid Task → Option (PoolState Tid Task)
  | .post t task =>
    if (s.threads t).canCall then
      let ticket := s.history.posts
      let called := { s with history := { s.history with posts := ticket + 1 } }
      match task, s.pool.accepting with
      | some task, true =>
        some { called with threads := setCall s.threads t (.counting ⟨ticket, task⟩) }
      | _, _ => some (called.returnPost t ticket .refused)
    else none
  -- `submitted` goes up before a worker can see the task
  | .count t =>
    match (s.threads t).call with
    | .counting posted =>
      some { s with
        pool := { s.pool with submitted := s.pool.submitted + 1 }
        threads := setCall s.threads t (.pushing posted) }
    | _ => none
  -- `try_push`, which a closed queue refuses and which may throw
  | .push t allocationFails =>
    match (s.threads t).call with
    | .pushing posted =>
      match s.pool.tasks.tryPush posted with
      | some tasks =>
        if allocationFails then
          some { s with threads := setCall s.threads t (.rollingBack posted true) }
        else
          some { s with
            pool := { s.pool with tasks := tasks }
            threads := setCall s.threads t (.pushed posted)
            history := { s.history with pushed := s.history.pushed ++ [posted.ticket] } }
      | none => some { s with threads := setCall s.threads t (.rollingBack posted false) }
    | _ => none
  | .postReturn t =>
    match (s.threads t).call with
    | .pushed posted => some (s.returnPost t posted.ticket .accepted)
    | _ => none
  -- both ways out of a post that failed take `submitted` back
  | .rollback t =>
    match (s.threads t).call with
    | .rollingBack posted threw =>
      some (returnPost { s with pool := { s.pool with submitted := s.pool.submitted - 1 } } t
        posted.ticket (if threw then .threw else .refused))
    | _ => none
  -- a closed queue is emptied before `wait_pop` returns no task
  | .pop t =>
    match (s.threads t).loop, s.pool.tasks.waitPop with
    | .popping, some (tasks, some posted) =>
      some { s with
        pool := { s.pool with tasks := tasks }
        threads := setLoop s.threads t (.running posted)
        history := { s.history with started := s.history.started ++ [posted.ticket] } }
    | .popping, some (_, none) => some { s with threads := setLoop s.threads t .left }
    | _, _ => none
  -- the task ends only after the calls that it made
  | .taskEnd t threw =>
    match (s.threads t).call, (s.threads t).loop with
    | .none, .running posted =>
      some { s with
        threads := setLoop s.threads t
          (if threw then .failing posted else .completing posted false)
        history := { s.history with finished := s.history.finished ++ [posted.ticket] } }
    | _, _ => none
  | .countFailed t =>
    match (s.threads t).loop with
    | .failing posted =>
      some { s with
        pool := { s.pool with failed := s.pool.failed + 1 }
        threads := setLoop s.threads t (.completing posted true) }
    | _ => none
  | .countCompleted t =>
    match (s.threads t).loop with
    | .completing _ _ =>
      some { s with
        pool := { s.pool with completed := s.pool.completed + 1 }
        threads := setLoop s.threads t .popping }
    | _ => none
  | .shutdown t =>
    if (s.threads t).canCall then
      some { s with
        pool := { s.pool with accepting := false }
        threads := setCall s.threads t .closing }
    else none
  | .close t =>
    match (s.threads t).call with
    | .closing =>
      some { s with
        pool := { s.pool with tasks := s.pool.tasks.close }
        threads := setCall s.threads t .entering }
    | _ => none
  -- the section under `workers_mutex_`: one caller swaps the handles out
  | .enter t =>
    match (s.threads t).call with
    | .entering =>
      if s.pool.shutdownFinished then some (s.returnShutdown t)
      else if s.pool.shutdownInProgress then
        -- the holder of the handles may be joining this worker
        if (s.threads t).callerIsWorker then some (s.returnShutdown t)
        else some { s with threads := setCall s.threads t .waitingFinished }
      else
        some { s with
          pool := { s.pool with shutdownInProgress := true, workers := [] }
          threads := setCall s.threads t (.joining s.pool.workers)
          history := { s.history with releasedBy := some t } }
    | _ => none
  | .join t =>
    match (s.threads t).call with
    | .joining (worker :: handles) =>
      -- the caller's own handle is detached, any other is joined
      if worker = t ∨ (s.threads worker).loop.hasLeft then
        some { s with threads := setCall s.threads t (.joining handles) }
      else none
    | _ => none
  -- `shutdown_finished_` is set before the waiting callers are notified
  | .finishShutdown t =>
    match (s.threads t).call with
    | .joining [] =>
      some (returnShutdown { s with
        pool := { s.pool with shutdownFinished := true, shutdownInProgress := false } } t)
    | _ => none
  | .awake t =>
    match (s.threads t).call with
    | .waitingFinished => if s.pool.shutdownFinished then some (s.returnShutdown t) else none
    | _ => none

end PoolState

def poolSystem (Tid Task : Type) [DecidableEq Tid] (workers : PoolWorkers Tid) :
    TransitionSystem (PoolState Tid Task) (PoolAction Tid Task) where
  init s := s = {
    pool := { workers := workers.ids }
    threads := fun t => if t ∈ workers.ids then { loop := .popping } else {} }
  step := PoolState.step

end RobotMiddleware
