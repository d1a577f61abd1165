import Mathlib.Tactic
import RobotMiddleware.TransitionSystem

/-! `SubscriptionControlBlock`: the mailbox of one subscription, its mutex sections
as functions, and the system of threads that run them. A section is atomic because
it runs under `Impl::mutex`; everything between two sections can interleave. -/
namespace RobotMiddleware

structure MiddlewareError where
  what : String
  deriving DecidableEq, Repr

inductive OverflowPolicy
  | dropOldest
  | rejectNewest
  deriving DecidableEq, Repr

structure SubscriptionOptions where
  queueDepth : ℕ := 10
  overflowPolicy : OverflowPolicy := .dropOldest
  receiveRemote : Bool := true
  deriving DecidableEq, Repr

structure DeliveryOutcome where
  enqueued : Bool := false
  droppedOldest : Bool := false
  rejectedNewest : Bool := false
  executorRejected : Bool := false
  deriving DecidableEq, Repr

/-- `SubscriptionControlBlock::Impl` behind its mutex. The constructor rejects a zero
depth, so every block carries a positive one. `callbackThread = none` is the default
`std::thread::id`. -/
structure SubscriptionControlBlock (Tid Msg : Type) where
  options : SubscriptionOptions
  pending : List Msg := []
  active : Bool := true
  scheduled : Bool := false
  inFlight : ℕ := 0
  callbackThread : Option Tid := none
  enqueued : ℕ := 0
  delivered : ℕ := 0
  droppedOldest : ℕ := 0
  rejectedNewest : ℕ := 0
  executorRejected : ℕ := 0
  callbackErrors : ℕ := 0
  queueDepth_pos : 0 < options.queueDepth
  deriving DecidableEq

namespace SubscriptionControlBlock
variable {Tid Msg : Type}

/-- The constructor, with `hasCallback` for the emptiness test of the callback. -/
def create (options : SubscriptionOptions) (hasCallback : Bool) :
    Except MiddlewareError (SubscriptionControlBlock Tid Msg) :=
  if h : options.queueDepth = 0 then
    .error ⟨"subscription queue_depth must be greater than zero"⟩
  else if !hasCallback then
    .error ⟨"subscription callback must not be empty"⟩
  else
    .ok { options := options, queueDepth_pos := Nat.pos_of_ne_zero h }

structure PushResult (Tid Msg : Type) where
  block : SubscriptionControlBlock Tid Msg
  outcome : DeliveryOutcome
  mustSchedule : Bool

/-- The tail of the push section, once there is room for the message. -/
def accept (c : SubscriptionControlBlock Tid Msg) (outcome : DeliveryOutcome) (message : Msg) :
    PushResult Tid Msg where
  block := { c with
    pending := c.pending ++ [message], enqueued := c.enqueued + 1, scheduled := true }
  outcome := { outcome with enqueued := true }
  mustSchedule := !c.scheduled

def enqueuePush (c : SubscriptionControlBlock Tid Msg) (message : Msg) (isRemote : Bool) :
    PushResult Tid Msg :=
  if !c.active then ⟨c, {}, false⟩
  else if isRemote && !c.options.receiveRemote then ⟨c, {}, false⟩
  else if c.options.queueDepth ≤ c.pending.length then
    match c.options.overflowPolicy with
    | .rejectNewest =>
      ⟨{ c with rejectedNewest := c.rejectedNewest + 1 }, { rejectedNewest := true }, false⟩
    | .dropOldest =>
      accept { c with pending := c.pending.tail, droppedOldest := c.droppedOldest + 1 }
        { droppedOldest := true } message
  else accept c {} message

/-- The section `enqueue` runs after its post returned false or threw. Both copies of
it in the source change the block in the same way. -/
def enqueueCleanup (c : SubscriptionControlBlock Tid Msg) : SubscriptionControlBlock Tid Msg :=
  { c with
    executorRejected := c.executorRejected + c.pending.length, pending := [], scheduled := false }

def cancel (c : SubscriptionControlBlock Tid Msg) : SubscriptionControlBlock Tid Msg :=
  { c with active := false, pending := [] }

/-- The pop section of `drain` on thread `t`; `none` leaves the loop. -/
def drainPop (c : SubscriptionControlBlock Tid Msg) (t : Tid) :
    SubscriptionControlBlock Tid Msg × Option Msg :=
  if !c.active then ({ c with pending := [], scheduled := false }, none)
  else
    match c.pending with
    | [] => ({ c with scheduled := false }, none)
    | message :: rest =>
      ({ c with pending := rest, inFlight := c.inFlight + 1, callbackThread := some t },
        some message)

/-- The section `drain` runs after the callback returned or threw. -/
def drainFinish (c : SubscriptionControlBlock Tid Msg) (callbackFailed : Bool) :
    SubscriptionControlBlock Tid Msg :=
  { c with
    inFlight := c.inFlight - 1
    delivered := c.delivered + 1
    callbackErrors := if callbackFailed then c.callbackErrors + 1 else c.callbackErrors
    callbackThread := none }

/-- The self-wait test of `cancel_and_wait` on thread `t`. -/
def waitsForItself [DecidableEq Tid] (c : SubscriptionControlBlock Tid Msg) (t : Tid) : Bool :=
  c.inFlight != 0 && c.callbackThread == some t

end SubscriptionControlBlock

structure SubscriptionStats where
  enqueued : ℕ
  delivered : ℕ
  droppedOldest : ℕ
  rejectedNewest : ℕ
  executorRejected : ℕ
  callbackErrors : ℕ
  pending : ℕ
  inFlight : ℕ
  active : Bool
  deriving DecidableEq, Repr

def SubscriptionControlBlock.stats {Tid Msg : Type} (c : SubscriptionControlBlock Tid Msg) :
    SubscriptionStats where
  enqueued := c.enqueued
  delivered := c.delivered
  droppedOldest := c.droppedOldest
  rejectedNewest := c.rejectedNewest
  executorRejected := c.executorRejected
  callbackErrors := c.callbackErrors
  pending := c.pending.length
  inFlight := c.inFlight
  active := c.active

/-- Where a thread is in `drain`. A message leaves `pending` when its callback starts,
so the callback begins with the pop section. -/
inductive DrainState (Msg : Type)
  | none
  | popping
  | callback (message : Msg)
  | finishing (failed : Bool)
  deriving DecidableEq

/-- Where a thread is in a call of `enqueue` or `cancel_and_wait`; the other calls are
one section long. -/
inductive CallState
  | none
  | posting (outcome : DeliveryOutcome)
  | cleaning (outcome : DeliveryOutcome) (threw : Bool)
  | waitEntry
  | waiting
  | woken
  deriving DecidableEq

/-- A thread's two levels: `drain` runs at the bottom of a worker's stack, and the user
callback it invokes may itself call into the subscription. -/
structure MailboxThread (Msg : Type) where
  drain : DrainState Msg := .none
  call : CallState := .none
  deriving DecidableEq

namespace MailboxThread
variable {Msg : Type}

/-- User code runs on the thread: outside `drain`, or inside the callback. -/
def canCall (th : MailboxThread Msg) : Bool :=
  match th.call, th.drain with
  | .none, .none => true
  | .none, .callback _ => true
  | _, _ => false

/-- `idle.notify_all()` as this thread sees it. -/
def notified (th : MailboxThread Msg) : MailboxThread Msg :=
  match th.call with
  | .waiting => { th with call := .woken }
  | _ => th

end MailboxThread

inductive CallReturn
  | enqueued (outcome : DeliveryOutcome)
  | enqueueThrew
  | cancelled
  | waited
  | waitThrew (error : MiddlewareError)
  deriving DecidableEq

/-- What happened so far, none of which the code stores. -/
structure MailboxHistory (Tid Msg : Type) where
  accepted : List Msg := []
  started : List Msg := []
  cancelled : Bool := false
  postFailed : Bool := false
  cancelDiscarded : ℕ := 0
  returns : List (Tid × CallReturn) := []
  deriving DecidableEq

/-- The control block, the number of posted `drain` tasks that no worker has started,
and the threads. -/
structure MailboxState (Tid Msg : Type) where
  block : SubscriptionControlBlock Tid Msg
  tasks : ℕ := 0
  threads : Tid → MailboxThread Msg := fun _ => {}
  history : MailboxHistory Tid Msg := {}

inductive PostResult
  | accepted
  | refused
  | threw
  deriving DecidableEq, Repr

inductive MailboxAction (Tid Msg : Type)
  | enqueue (t : Tid) (message : Msg) (isRemote : Bool)
  | post (t : Tid) (result : PostResult)
  | cleanup (t : Tid)
  | cancel (t : Tid)
  | cancelAndWait (t : Tid)
  | checkWait (t : Tid)
  | wake (t : Tid)
  | recheck (t : Tid)
  | startDrain (t : Tid)
  | pop (t : Tid)
  | callbackEnd (t : Tid) (threw : Bool)
  | finish (t : Tid)

namespace MailboxState
variable {Tid Msg : Type} [DecidableEq Tid]

def setCall (threads : Tid → MailboxThread Msg) (t : Tid) (call : CallState) :
    Tid → MailboxThread Msg :=
  Function.update threads t { threads t with call := call }

def setDrain (threads : Tid → MailboxThread Msg) (t : Tid) (drain : DrainState Msg) :
    Tid → MailboxThread Msg :=
  Function.update threads t { threads t with drain := drain }

def notifyAll (threads : Tid → MailboxThread Msg) : Tid → MailboxThread Msg :=
  fun t => (threads t).notified

def selfWaitError : MiddlewareError :=
  ⟨"cancel_and_wait cannot be called from the subscription callback"⟩

def step (s : MailboxState Tid Msg) : MailboxAction Tid Msg → Option (MailboxState Tid Msg)
  | .enqueue t message isRemote =>
    if (s.threads t).canCall then
      let r := s.block.enqueuePush message isRemote
      some { s with
        block := r.block
        threads := if r.mustSchedule then setCall s.threads t (.posting r.outcome) else s.threads
        history := { s.history with
          accepted := if r.outcome.enqueued then s.history.accepted ++ [message]
            else s.history.accepted
          returns := if r.mustSchedule then s.history.returns
            else s.history.returns ++ [(t, .enqueued r.outcome)] } }
    else none
  -- `executor->execute` runs between the two sections of `enqueue`
  | .post t result =>
    match (s.threads t).call, result with
    | .posting outcome, .accepted =>
      some { s with
        tasks := s.tasks + 1
        threads := setCall s.threads t .none
        history := { s.history with
          returns := s.history.returns ++ [(t, .enqueued outcome)] } }
    | .posting outcome, .refused =>
      some { s with
        threads := setCall s.threads t (.cleaning outcome false)
        history := { s.history with postFailed := true } }
    | .posting outcome, .threw =>
      some { s with
        threads := setCall s.threads t (.cleaning outcome true)
        history := { s.history with postFailed := true } }
    | _, _ => none
  -- the section after a post that returned false or threw
  | .cleanup t =>
    match (s.threads t).call with
    | .cleaning outcome threw =>
      some { s with
        block := s.block.enqueueCleanup
        threads := notifyAll (setCall s.threads t .none)
        history := { s.history with
          returns := s.history.returns ++ [(t, if threw then .enqueueThrew
            else .enqueued { outcome with enqueued := false, executorRejected := true })] } }
    | _ => none
  | .cancel t =>
    if (s.threads t).canCall then
      some { s with
        block := s.block.cancel
        threads := notifyAll s.threads
        history := { s.history with
          cancelled := true
          cancelDiscarded := s.history.cancelDiscarded + s.block.pending.length
          returns := s.history.returns ++ [(t, .cancelled)] } }
    else none
  -- `cancel` and the wait are two sections, and other threads may run between them
  | .cancelAndWait t =>
    if (s.threads t).canCall then
      some { s with
        block := s.block.cancel
        threads := setCall (notifyAll s.threads) t .waitEntry
        history := { s.history with
          cancelled := true
          cancelDiscarded := s.history.cancelDiscarded + s.block.pending.length } }
    else none
  -- the test for a wait of the callback for itself comes before the predicate
  | .checkWait t =>
    match (s.threads t).call with
    | .waitEntry =>
      if s.block.waitsForItself t then
        some { s with
          threads := setCall s.threads t .none
          history := { s.history with
            returns := s.history.returns ++ [(t, .waitThrew selfWaitError)] } }
      else if s.block.inFlight = 0 then
        some { s with
          threads := setCall s.threads t .none
          history := { s.history with returns := s.history.returns ++ [(t, .waited)] } }
      else some { s with threads := setCall s.threads t .waiting }
    | _ => none
  -- `idle.wait` may wake up by itself
  | .wake t =>
    match (s.threads t).call with
    | .waiting => some { s with threads := setCall s.threads t .woken }
    | _ => none
  -- the predicate of `idle.wait`, with the mutex held again
  | .recheck t =>
    match (s.threads t).call with
    | .woken =>
      if s.block.inFlight = 0 then
        some { s with
          threads := setCall s.threads t .none
          history := { s.history with returns := s.history.returns ++ [(t, .waited)] } }
      else some { s with threads := setCall s.threads t .waiting }
    | _ => none
  -- a worker takes up a posted task only from the bottom of its stack
  | .startDrain t =>
    match s.tasks, (s.threads t).call, (s.threads t).drain with
    | tasks + 1, .none, .none =>
      some { s with tasks := tasks, threads := setDrain s.threads t .popping }
    | _, _, _ => none
  | .pop t =>
    match (s.threads t).drain with
    | .popping =>
      match s.block.drainPop t with
      | (block, some message) =>
        some { s with
          block := block
          threads := setDrain s.threads t (.callback message)
          history := { s.history with started := s.history.started ++ [message] } }
      -- nothing is left or the block is inactive, and the token goes
      | (block, none) =>
        some { s with
          block := block
          threads := notifyAll (setDrain s.threads t .none)
          history := { s.history with
            cancelDiscarded := s.history.cancelDiscarded + s.block.pending.length } }
    | _ => none
  | .callbackEnd t threw =>
    match (s.threads t).call, (s.threads t).drain with
    | .none, .callback _ => some { s with threads := setDrain s.threads t (.finishing threw) }
    | _, _ => none
  | .finish t =>
    match (s.threads t).drain with
    | .finishing failed =>
      some { s with
        block := s.block.drainFinish failed
        threads := notifyAll (setDrain s.threads t .popping) }
    | _ => none

end MailboxState

def mailboxSystem (Tid Msg : Type) [DecidableEq Tid] (options : SubscriptionOptions) :
    TransitionSystem (MailboxState Tid Msg) (MailboxAction Tid Msg) where
  init s := ∃ block, SubscriptionControlBlock.create options true = .ok block ∧
    s = { block := block }
  step := MailboxState.step

end RobotMiddleware
