import RobotMiddleware.ThreadPoolModel

/-! `NetworkBridge::stop` in manual mode: any number of threads that call it, the sender thread
with its `FrameSender`, which may call it too, and the export callbacks. -/
namespace RobotMiddleware

/-- `wait_pop_for`: an empty queue is a timeout, or a closed queue. -/
def ThreadSafeQueue.waitPopFor {α : Type} (q : ThreadSafeQueue α) : ThreadSafeQueue α × Option α :=
  match q.queue with
  | value :: rest => ({ q with queue := rest }, some value)
  | [] => (q, none)

inductive SenderLoop (Frame : Type)
  | checking
  | popping
  | sending (frame : Frame)
  | left
  deriving DecidableEq

inductive StopCall
  | none
  | locking
  | exchanging
  | configuring
  | cancelling (exports : List ℕ)
  | waitingExport (subscription : ℕ) (exports : List ℕ)
  | closing
  | connecting
  | joining
  | unlocking
  deriving DecidableEq

inductive ExportCallback (Frame : Type)
  | idle
  | building
  | pushing (frame : Frame)
  | ending

/-- What `cancel_and_wait` reads and writes of an export subscription, and its callback, which
never runs twice at a time. -/
structure ExportSubscription (Frame : Type) where
  active : Bool := true
  callback : ExportCallback Frame := .idle

/-- The members that `stop`, the sender loop and the export callbacks share. `cancellers` are the
export subscriptions by number, of which `registered` have been made. -/
structure BridgeStopState (Tid Frame : Type) where
  stopMutex : Option Tid := .none
  stopped : Bool := false
  running : Bool := true
  outbound : ThreadSafeQueue Frame
  joinable : Bool := true
  sender : SenderLoop Frame := .checking
  registered : ℕ := 0
  exports : ℕ → ExportSubscription Frame := fun _ => {}
  cancellers : List ℕ := []
  calls : Tid → StopCall := fun _ => .none

inductive BridgeStopAction (Tid Frame : Type)
  | addExport
  | callbackBegin (subscription : ℕ)
  | emitFrame (subscription : ℕ) (frame : Frame)
  | push (subscription : ℕ)
  | callbackEnd (subscription : ℕ)
  | check
  | pop
  | senderEnd
  | stop (t : Tid)
  | lock (t : Tid)
  | exchange (t : Tid)
  | configure (t : Tid)
  | cancel (t : Tid)
  | waited (t : Tid)
  | stopRunning (t : Tid)
  | close (t : Tid)
  | connection (t : Tid)
  | join (t : Tid)
  | unlock (t : Tid)

namespace BridgeStopState
variable {Tid Frame : Type} [DecidableEq Tid]

def setCall (s : BridgeStopState Tid Frame) (t : Tid) (call : StopCall) :
    BridgeStopState Tid Frame :=
  { s with calls := Function.update s.calls t call }

def setExport (s : BridgeStopState Tid Frame) (subscription : ℕ) (state : ExportSubscription Frame) :
    BridgeStopState Tid Frame :=
  { s with exports := Function.update s.exports subscription state }

/-- User code runs on the thread: the sender thread has to be in its `FrameSender`. -/
def canCall (sender : Tid) (s : BridgeStopState Tid Frame) (t : Tid) : Bool :=
  match s.calls t, s.sender with
  | .none, .sending _ => true
  | .none, _ => t ≠ sender
  | _, _ => false

/-- One atomic step of one thread; `sender` is the sender thread. -/
def step (sender : Tid) (s : BridgeStopState Tid Frame) :
    BridgeStopAction Tid Frame → Option (BridgeStopState Tid Frame)
  | .addExport =>
    if !s.stopped then
      some { s with registered := s.registered + 1, cancellers := s.cancellers ++ [s.registered] }
    else none
  | .callbackBegin subscription =>
    let state := s.exports subscription
    match state.callback with
    | .idle =>
      if subscription < s.registered && state.active then
        some (s.setExport subscription { state with callback := .building })
      else none
    | _ => none
  -- a stopped bridge drops the frame before it gets to the queue
  | .emitFrame subscription frame =>
    let state := s.exports subscription
    match state.callback with
    | .building =>
      some (s.setExport subscription
        { state with callback := if s.stopped then .ending else .pushing frame })
    | _ => none
  | .push subscription =>
    let state := s.exports subscription
    match state.callback with
    | .pushing frame =>
      some ({ s with outbound := (s.outbound.tryPush frame).getD s.outbound }.setExport subscription
        { state with callback := .ending })
    | _ => none
  | .callbackEnd subscription =>
    let state := s.exports subscription
    -- `make_frame` may throw, and then no frame is emitted
    match state.callback with
    | .building | .ending => some (s.setExport subscription { state with callback := .idle })
    | _ => none
  | .check =>
    match s.sender with
    | .checking => some { s with sender := if s.running && !s.stopped then .popping else .left }
    | _ => none
  | .pop =>
    match s.sender with
    | .popping =>
      match s.outbound.waitPopFor with
      | (outbound, some frame) => some { s with outbound := outbound, sender := .sending frame }
      | (_, .none) => some { s with sender := .checking }
    | _ => none
  | .senderEnd =>
    match s.sender, s.calls sender with
    | .sending _, .none => some { s with sender := .checking }
    | _, _ => none
  | .stop t => if s.canCall sender t then some (s.setCall t .locking) else none
  -- `stop_mutex_` is held until the call returns
  | .lock t =>
    match s.calls t, s.stopMutex with
    | .locking, .none => some ({ s with stopMutex := some t }.setCall t .exchanging)
    | _, _ => none
  -- only the call that sets `stopped_` cancels and closes
  | .exchange t =>
    match s.calls t with
    | .exchanging =>
      some ({ s with stopped := true }.setCall t (if s.stopped then .connecting else .configuring))
    | _ => none
  | .configure t =>
    match s.calls t with
    | .configuring => some ({ s with cancellers := [] }.setCall t (.cancelling s.cancellers))
    | _ => none
  | .cancel t =>
    match s.calls t with
    | .cancelling (subscription :: exports) =>
      some ((s.setExport subscription { s.exports subscription with active := false }).setCall t
        (.waitingExport subscription exports))
    | _ => none
  | .waited t =>
    match s.calls t with
    | .waitingExport subscription exports =>
      match (s.exports subscription).callback with
      | .idle => some (s.setCall t (.cancelling exports))
      | _ => none
    | _ => none
  | .stopRunning t =>
    match s.calls t with
    | .cancelling [] => some ({ s with running := false }.setCall t .closing)
    | _ => none
  -- closing wakes the sender thread out of `wait_pop_for`
  | .close t =>
    match s.calls t with
    | .closing => some ({ s with outbound := s.outbound.close }.setCall t .connecting)
    | _ => none
  -- there is no connection in manual mode, so only the `join` may follow
  | .connection t =>
    match s.calls t with
    | .connecting =>
      some (s.setCall t (if s.joinable && t ≠ sender then .joining else .unlocking))
    | _ => none
  | .join t =>
    match s.calls t, s.sender with
    | .joining, .left => some ({ s with joinable := false }.setCall t .unlocking)
    | _, _ => none
  | .unlock t =>
    match s.calls t with
    | .unlocking => some ({ s with stopMutex := .none }.setCall t .none)
    | _ => none

end BridgeStopState

def bridgeStopSystem (Tid Frame : Type) [DecidableEq Tid] (sender : Tid) (depth : ℕ) :
    TransitionSystem (BridgeStopState Tid Frame) (BridgeStopAction Tid Frame) where
  init s := s = { outbound := { capacity := depth } }
  step := BridgeStopState.step sender

end RobotMiddleware
