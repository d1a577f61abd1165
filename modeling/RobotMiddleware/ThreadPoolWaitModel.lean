import RobotMiddleware.QueueFifo
import RobotMiddleware.QueueWakeups
import RobotMiddleware.ThreadPoolShutdown

/-! `ThreadPool` with the inside of its queue and its condition variable. The pool of
`ThreadPoolModel` and the queue of `QueueModel` run side by side: a thread is in a call of the
queue where the pool says so, the pool takes its step when the section of that call comes to a
result, and goes on when the call has returned. -/
namespace RobotMiddleware
open ConditionVariable

def PoolThread.queueOp {Tid Task : Type} (th : PoolThread Tid Task) :
    Option (QueueOp (PostedTask Task)) :=
  match th.call, th.loop with
  | .pushing posted, _ => some (.tryPush posted)
  | .closing, _ => some .close
  | .none, .popping => some .waitPop
  | _, _ => none

/-- The step of the pool that the section of an operation is. -/
def QueueOp.poolAction {Tid Task : Type} (t : Tid) :
    QueueOp (PostedTask Task) → Option (PoolAction Tid Task)
  | .tryPush _ => some (.push t false)
  | .close => some (.close t)
  | .waitPop => some (.pop t)
  | _ => none

def QueuePhase.isIdle {α : Type} : QueuePhase α → Bool
  | .idle => true
  | _ => false

def PoolAction.thread {Tid Task : Type} : PoolAction Tid Task → Tid
  | .post t _ | .count t | .push t _ | .postReturn t | .rollback t | .pop t | .taskEnd t _
  | .countFailed t | .countCompleted t | .shutdown t | .close t | .enter t | .join t
  | .finishShutdown t | .awake t => t

/-- The pool, `state->tasks` and `shutdown_complete_`. `notifying` are the threads that have set
`shutdown_finished_` and not called `notify_all` yet; `joined` and `detached` record what became
of the handles. -/
structure PoolRun (Tid Task : Type) where
  pool : PoolState Tid Task
  tasks : QueueState Tid (PostedTask Task) := {}
  complete : WaitSet Tid := {}
  notifying : List Tid := []
  joined : List (Tid × Tid) := []
  detached : List Tid := []

inductive PoolRunAction (Tid Task : Type)
  | pool (a : PoolAction Tid Task)
  | queueCall (t : Tid)
  | queueStep (a : QueueAction Tid (PostedTask Task))
  | sleepAgain (t : Tid)
  | wakeComplete (t : Tid)
  | notifyComplete (t : Tid)

namespace PoolRun
variable {Tid Task : Type} [DecidableEq Tid]

def atPool (s : PoolRun Tid Task) (t : Tid) : Bool :=
  (s.tasks.threads t).isIdle && !decide (t ∈ s.notifying)

def ended (s : PoolRun Tid Task) (t : Tid) : Bool :=
  (s.pool.threads t).loop.hasLeft && (s.tasks.threads t).isIdle

/-- The next handle: a thread detaches its own, and joins any other once it has ended. -/
def releaseHandle (s : PoolRun Tid Task) (t : Tid) : Option (PoolRun Tid Task) :=
  match (s.pool.threads t).call with
  | .joining (worker :: _) =>
    if worker = t then
      (s.pool.step (.join t)).map fun pool =>
        { s with pool := pool, detached := s.detached ++ [worker] }
    else if s.ended worker then
      (s.pool.step (.join t)).map fun pool =>
        { s with pool := pool, joined := s.joined ++ [(t, worker)] }
    else none
  | _ => none

def poolStep (s : PoolRun Tid Task) : PoolAction Tid Task → Option (PoolRun Tid Task)
  | .push _ _ | .pop _ | .close _ => none
  | .enter t =>
    (s.pool.step (.enter t)).map fun pool =>
      match (pool.threads t).call with
      | .waitingFinished => { s with pool := pool, complete := s.complete.sleep t }
      | _ => { s with pool := pool }
  | .awake t =>
    if t ∈ s.complete.asleep then none
    else (s.pool.step (.awake t)).map fun pool => { s with pool := pool }
  | .join t => s.releaseHandle t
  | .finishShutdown t =>
    (s.pool.step (.finishShutdown t)).map fun pool =>
      { s with pool := pool, notifying := t :: s.notifying }
  | a => (s.pool.step a).map fun pool => { s with pool := pool }

def queueStep (s : PoolRun Tid Task) (a : QueueAction Tid (PostedTask Task)) :
    Option (PoolRun Tid Task) :=
  match a with
  | .call _ _ => none
  | .enter t timedOut =>
    (s.tasks.step (.enter t timedOut)).bind fun tasks =>
      match (tasks.threads t).settled with
      | some (call, _) =>
        (call.op.poolAction t).bind fun b =>
          (s.pool.step b).map fun pool => { s with tasks := tasks, pool := pool }
      | none => some { s with tasks := tasks }
  | a => (s.tasks.step a).map fun tasks => { s with tasks := tasks }

def step (s : PoolRun Tid Task) : PoolRunAction Tid Task → Option (PoolRun Tid Task)
  | .pool a => if s.atPool a.thread then s.poolStep a else none
  | .queueCall t =>
    if t ∈ s.notifying then none
    else
      (s.pool.threads t).queueOp.bind fun op =>
        (s.tasks.step (.call t op)).map fun tasks => { s with tasks := tasks }
  | .queueStep a => s.queueStep a
  | .sleepAgain t =>
    -- the predicate of `shutdown_complete_.wait` is still false
    match (s.pool.threads t).call with
    | .waitingFinished =>
      if t ∈ s.complete.asleep ∨ s.pool.pool.shutdownFinished = true then none
      else some { s with complete := s.complete.sleep t }
    | _ => none
  | .wakeComplete t =>
    if t ∈ s.complete.asleep then some { s with complete := s.complete.wake t } else none
  | .notifyComplete t =>
    if t ∈ s.notifying then
      some { s with
        complete := s.complete.notifyAll
        notifying := s.notifying.filter fun u => u ≠ t }
    else none

end PoolRun

def poolRunSystem (Tid Task : Type) [DecidableEq Tid] (workers : PoolWorkers Tid) :
    TransitionSystem (PoolRun Tid Task) (PoolRunAction Tid Task) where
  init s := ∃ pool, (poolSystem Tid Task workers).init pool ∧ s = { pool := pool }
  step := PoolRun.step

end RobotMiddleware
