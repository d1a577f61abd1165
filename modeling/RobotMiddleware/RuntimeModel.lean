import RobotMiddleware.ThreadPoolModel
import RobotMiddleware.TopicBusSteps

/-! `Runtime`: a bus whose executor is a `ThreadPool`. The tasks of the pool are the `drain`s
that `enqueue` posts, and `shutdown` stops the bus before it shuts the pool down. -/
namespace RobotMiddleware

def BusAction.alone {Tid Ty : Type} {Val : Ty → Type} : BusAction Tid Val → Bool
  | .post _ _ | .startDrain _ _ | .stopReturn _ => false
  | _ => true

def PoolAction.alone {Tid Task : Type} : PoolAction Tid Task → Bool
  | .count _ | .postReturn _ | .countCompleted _ | .close _ | .enter _ | .join _
  | .finishShutdown _ | .awake _ => true
  | _ => false

/-- The bus and the pool. A task is the number of the control block that it drains. -/
structure RuntimeState (Tid : Type) {Ty : Type} (Val : Ty → Type) where
  bus : BusState Tid Val := {}
  pool : PoolState Tid ℕ

inductive RuntimeAction (Tid : Type) {Ty : Type} (Val : Ty → Type)
  | bus (a : BusAction Tid Val)
  | pool (a : PoolAction Tid ℕ)
  | execute (t : Tid)
  | push (t : Tid) (allocationFails : Bool)
  | rollback (t : Tid)
  | pop (t : Tid)
  | taskEnd (t : Tid)
  | shutdownExecutor (t : Tid)

namespace RuntimeState
variable {Tid Ty : Type} {Val : Ty → Type} [DecidableEq Tid]

/-- The thread executes code of the bus or of the user: outside the pool, or in a task that
is still draining. -/
def runs (s : RuntimeState Tid Val) (t : Tid) : Bool :=
  match (s.pool.threads t).call, (s.pool.threads t).loop with
  | .none, .none => true
  | .none, .running _ => (s.bus.threads t).drain.isSome
  | _, _ => false

variable [DecidableEq Ty]

/-- One atomic step of one thread. `execute` posts the drain of an enqueue that has to
schedule one, and what the pool makes of it is the result of that enqueue's post. -/
def step (s : RuntimeState Tid Val) : RuntimeAction Tid Val → Option (RuntimeState Tid Val)
  | .bus a =>
    if a.alone && a.actor.all s.runs then
      (s.bus.step a).map fun bus => { s with bus := bus }
    else none
  | .pool a => if a.alone then (s.pool.step a).map fun pool => { s with pool := pool } else none
  | .execute t =>
    match (s.bus.threads t).call with
    | .enqueueing _ block =>
      match (s.bus.boxThread block t).call with
      | .posting _ =>
        if s.runs t then
          (s.pool.step (.post t (some block))).bind fun pool =>
            if s.pool.pool.accepting then some { s with pool := pool }
            else (s.bus.step (.post t .refused)).map fun bus => ⟨bus, pool⟩
        else none
      | _ => none
    | _ => none
  | .push t allocationFails =>
    (s.pool.step (.push t allocationFails)).bind fun pool =>
      match (pool.threads t).call with
      | .pushed _ => (s.bus.step (.post t .accepted)).map fun bus => ⟨bus, pool⟩
      | _ => some { s with pool := pool }
  | .rollback t =>
    match (s.pool.threads t).call with
    | .rollingBack _ threw =>
      (s.pool.step (.rollback t)).bind fun pool =>
        (s.bus.step (.post t (if threw then .threw else .refused))).map fun bus => ⟨bus, pool⟩
    | _ => none
  | .pop t =>
    (s.pool.step (.pop t)).bind fun pool =>
      match (pool.threads t).loop with
      | .running posted => (s.bus.step (.startDrain t posted.task)).map fun bus => ⟨bus, pool⟩
      | _ => some { s with pool := pool }
  -- `drain` is `noexcept`, so no task throws
  | .taskEnd t =>
    if (s.bus.threads t).drain.isNone then
      (s.pool.step (.taskEnd t false)).map fun pool => { s with pool := pool }
    else none
  | .shutdownExecutor t =>
    if s.runs t then
      (s.bus.step (.stopReturn t)).bind fun bus =>
        (s.pool.step (.shutdown t)).map fun pool => ⟨bus, pool⟩
    else none

end RuntimeState

def runtimeSystem (Tid : Type) {Ty : Type} (Val : Ty → Type) [DecidableEq Tid] [DecidableEq Ty]
    (workers : PoolWorkers Tid) :
    TransitionSystem (RuntimeState Tid Val) (RuntimeAction Tid Val) where
  init s := s.bus = {} ∧ (poolSystem Tid ℕ workers).init s.pool
  step := RuntimeState.step

end RobotMiddleware
