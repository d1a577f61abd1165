import Mathlib.Data.List.AList
import RobotMiddleware.FrameModel
import RobotMiddleware.MailboxModel

/-! `TopicBus`: the registry behind its mutex, and the system of threads that advertise,
subscribe, publish, cancel and drain. The sections of the registry are programs that keep
what they have changed when they throw. -/
namespace RobotMiddleware

/-- The type id, the schema hash and the `std::type_index` that a topic is registered with. -/
structure TypeContract (Ty : Type) where
  typeId : BitVec 32
  schemaHash : BitVec 64
  localType : Ty
  deriving DecidableEq

/-- `TopicRecord`: the contract of a topic and its subscriptions, each a weak pointer to a
control block, here the number of the block. -/
structure TopicRecord (Ty : Type) where
  contract : TypeContract Ty
  subscriptions : List (BitVec 64 × ℕ) := []
  deriving DecidableEq

/-- `TopicBus::Impl` without its mutex and executor. -/
structure TopicBus (Ty : Type) where
  accepting : Bool := true
  nextSubscriptionId : BitVec 64 := 1
  topics : AList (fun _ : Bytes => TopicRecord Ty) := ∅

/-- A section of the registry. What it has written stays written when it throws. -/
abbrev BusM (Ty : Type) := ExceptT MiddlewareError (StateM (TopicBus Ty))

def text (bytes : Bytes) : String :=
  String.ofList (bytes.map fun b => Char.ofNat b.toNat)

namespace TopicBus
variable {Ty : Type} [DecidableEq Ty]

def emptyTopicError : MiddlewareError := ⟨"topic name must not be empty"⟩

def stoppedError : MiddlewareError := ⟨"middleware runtime is stopped"⟩

def typeConflictError (topic : Bytes) : MiddlewareError :=
  ⟨"message type conflict on topic '" ++ text topic ++ "'"⟩

def notRegisteredError : MiddlewareError := ⟨"publisher topic is not registered"⟩

def validateTopic (topic : Bytes) : BusM Ty Unit :=
  if topic = [] then throw emptyTopicError else pure ()

def validateType (topic : Bytes) (record : TopicRecord Ty) (contract : TypeContract Ty) :
    BusM Ty Unit :=
  if record.contract ≠ contract then throw (typeConflictError topic) else pure ()

def requireAccepting : BusM Ty Unit := do
  if !(← get).accepting then throw stoppedError

/-- `topics.emplace(topic, TopicRecord(...))` for a topic that is not there. -/
def emplace (b : TopicBus Ty) (topic : Bytes) (record : TopicRecord Ty) : TopicBus Ty :=
  { b with topics := b.topics.insert topic record }

/-- Both registrations fix the contract of a new topic and check the one of a known topic. -/
def findOrEmplace (topic : Bytes) (contract : TypeContract Ty) : BusM Ty Unit := do
  match (← get).topics.lookup topic with
  | none => modify fun b => b.emplace topic { contract := contract }
  | some record => validateType topic record contract

def advertise (topic : Bytes) (contract : TypeContract Ty) : BusM Ty Unit := do
  validateTopic topic
  requireAccepting
  findOrEmplace topic contract

/-- `emplace(id, state)` in the map of the topic; a key that is there keeps its value. -/
def addSubscription (b : TopicBus Ty) (topic : Bytes) (id : BitVec 64) (block : ℕ) :
    TopicBus Ty :=
  match b.topics.lookup topic with
  | some record =>
    if id ∈ record.subscriptions.map Prod.fst then b
    else b.emplace topic { record with subscriptions := record.subscriptions ++ [(id, block)] }
  | none => b

/-- `subscribe`; `block` is the number that the new control block gets. -/
def subscribe {Tid Msg : Type} (topic : Bytes) (contract : TypeContract Ty)
    (options : SubscriptionOptions) (hasCallback : Bool) (block : ℕ) :
    BusM Ty (BitVec 64 × SubscriptionControlBlock Tid Msg) := do
  validateTopic topic
  let state ← (SubscriptionControlBlock.create options hasCallback :
    Except MiddlewareError (SubscriptionControlBlock Tid Msg))
  requireAccepting
  findOrEmplace topic contract
  let id := (← get).nextSubscriptionId
  modify fun b => { b with nextSubscriptionId := b.nextSubscriptionId + 1 }
  modify fun b => b.addSubscription topic id block
  return (id, state)

/-- The locked section of `publish`: the blocks that still exist, after the others have been
pruned from the map. -/
def publish (topic : Bytes) (contract : TypeContract Ty) (expired : ℕ → Bool) :
    BusM Ty (List ℕ) := do
  requireAccepting
  match (← get).topics.lookup topic with
  | none => throw notRegisteredError
  | some record =>
    validateType topic record contract
    let live := record.subscriptions.filter fun entry => !expired entry.2
    modify fun b => b.emplace topic { record with subscriptions := live }
    return live.map Prod.snd

def unsubscribe (b : TopicBus Ty) (topic : Bytes) (id : BitVec 64) : TopicBus Ty :=
  match b.topics.lookup topic with
  | some record =>
    b.emplace topic { record with
      subscriptions := record.subscriptions.filter fun entry => entry.1 != id }
  | none => b

/-- `topic.second.subscriptions.clear()` for every topic. -/
def clear (topics : AList (fun _ : Bytes => TopicRecord Ty)) :
    AList (fun _ : Bytes => TopicRecord Ty) where
  entries := topics.entries.map fun e => ⟨e.1, { e.2 with subscriptions := [] }⟩
  nodupKeys := by
    have hkeys : (topics.entries.map fun e =>
        (⟨e.1, { e.2 with subscriptions := [] }⟩ : Sigma fun _ : Bytes => TopicRecord Ty)).keys =
        topics.entries.keys := by simp [List.keys, Function.comp_def]
    rw [List.NodupKeys, hkeys]
    exact topics.nodupKeys

def liveBlocks (b : TopicBus Ty) (expired : ℕ → Bool) : List ℕ :=
  b.topics.entries.flatMap fun e =>
    (e.2.subscriptions.filter fun entry => !expired entry.2).map Prod.snd

def stop (b : TopicBus Ty) (expired : ℕ → Bool) : TopicBus Ty × List ℕ :=
  if !b.accepting then (b, [])
  else ({ b with accepting := false, topics := clear b.topics }, b.liveBlocks expired)

end TopicBus

structure PublishResult where
  matchedSubscribers : ℕ := 0
  enqueued : ℕ := 0
  droppedOldest : ℕ := 0
  rejectedNewest : ℕ := 0
  executorRejected : ℕ := 0
  deriving DecidableEq, Repr

def PublishResult.add (result : PublishResult) (outcome : DeliveryOutcome) : PublishResult :=
  { result with
    enqueued := result.enqueued + outcome.enqueued.toNat
    droppedOldest := result.droppedOldest + outcome.droppedOldest.toNat
    rejectedNewest := result.rejectedNewest + outcome.rejectedNewest.toNat
    executorRejected := result.executorRejected + outcome.executorRejected.toNat }

/-- An erased message: a value that knows its real type, as the object behind the
`std::shared_ptr<const void>` does. -/
abbrev ErasedMessage {Ty : Type} (Val : Ty → Type) := Σ τ, Val τ

/-- `std::static_pointer_cast<const MessageT>` in the callback wrapper; `none` is a cast to a
type that the object does not have. -/
def staticPointerCast {Ty : Type} [DecidableEq Ty] {Val : Ty → Type} (τ : Ty)
    (message : ErasedMessage Val) : Option (Val τ) :=
  if h : message.1 = τ then some (h ▸ message.2) else none

/-- A message under way, with the `publish` call that brought it: its number, its thread and
its arguments. `Publisher` passes the type of the object as the local type. -/
structure Publication (Tid : Type) {Ty : Type} (Val : Ty → Type) where
  call : ℕ
  publisher : Tid
  topic : Bytes
  typeId : BitVec 32
  schemaHash : BitVec 64
  message : ErasedMessage Val
  isRemote : Bool

def Publication.contract {Tid Ty : Type} {Val : Ty → Type} (p : Publication Tid Val) :
    TypeContract Ty :=
  ⟨p.typeId, p.schemaHash, p.message.1⟩

/-- A `publish` call past its snapshot: what it still has to enqueue, and what it counted. -/
structure PublishCall (Tid : Type) {Ty : Type} (Val : Ty → Type) where
  publication : Publication Tid Val
  remaining : List ℕ
  result : PublishResult

inductive BusCall (Tid : Type) {Ty : Type} (Val : Ty → Type)
  | none
  | locking (c : PublishCall Tid Val)
  | dispatching (c : PublishCall Tid Val)
  | enqueueing (c : PublishCall Tid Val) (block : ℕ)
  | waiting (block : ℕ)
  | stopping (remaining : List ℕ)

/-- The mailbox that the thread drains, at the bottom of its stack, and its call. -/
structure BusThread (Tid : Type) {Ty : Type} (Val : Ty → Type) where
  drain : Option ℕ := .none
  call : BusCall Tid Val := .none

structure BusSubscription (Tid : Type) {Ty : Type} (Val : Ty → Type) where
  topic : Bytes
  contract : TypeContract Ty
  options : SubscriptionOptions
  id : BitVec 64
  state : MailboxState Tid (Publication Tid Val)

inductive BusReturn
  | advertised
  | subscribed (id : BitVec 64)
  | published (result : PublishResult)
  | publishThrew
  | stopped
  | error (e : MiddlewareError)
  deriving DecidableEq

/-- What happened so far: the number of `publish` calls and of control blocks, the successful
registrations, the ids given out, the publications in the order in which their calls got the
dispatch mutex of their topic, what each enqueue reported, and the returns. -/
structure BusHistory (Tid : Type) {Ty : Type} (Val : Ty → Type) where
  publishes : ℕ := 0
  created : ℕ := 0
  registrations : List (Bytes × TypeContract Ty) := []
  ids : List (BitVec 64) := []
  dispatched : List (Publication Tid Val) := []
  outcomes : List (ℕ × ℕ × DeliveryOutcome) := []
  returns : List (Tid × BusReturn) := []

/-- The registry, the control blocks by number and those that no longer exist, the threads,
and the holders of the dispatch mutexes. -/
structure BusState (Tid : Type) {Ty : Type} (Val : Ty → Type) where
  bus : TopicBus Ty := {}
  boxes : ℕ → Option (BusSubscription Tid Val) := fun _ => none
  expired : ℕ → Bool := fun _ => false
  threads : Tid → BusThread Tid Val := fun _ => {}
  dispatch : Bytes → Option Tid := fun _ => none
  history : BusHistory Tid Val := {}

/-- `order` is the order in which an unordered map is traversed. -/
inductive BusAction (Tid : Type) {Ty : Type} (Val : Ty → Type)
  | advertise (t : Tid) (topic : Bytes) (contract : TypeContract Ty)
  | subscribe (t : Tid) (topic : Bytes) (contract : TypeContract Ty)
      (options : SubscriptionOptions) (hasCallback : Bool)
  | publish (t : Tid) (topic : Bytes) (typeId : BitVec 32) (schemaHash : BitVec 64)
      (message : ErasedMessage Val) (isRemote : Bool) (order : List ℕ)
  | lockDispatch (t : Tid)
  | enqueue (t : Tid)
  | post (t : Tid) (result : PostResult)
  | cleanup (t : Tid)
  | unlockDispatch (t : Tid)
  | unsubscribe (t : Tid) (topic : Bytes) (id : BitVec 64)
  | cancel (t : Tid) (block : ℕ)
  | cancelAndWait (t : Tid) (block : ℕ)
  | checkWait (t : Tid)
  | wake (t : Tid)
  | recheck (t : Tid)
  | expire (block : ℕ)
  | stop (t : Tid) (order : List ℕ)
  | stopCancel (t : Tid)
  | stopReturn (t : Tid)
  | startDrain (t : Tid) (block : ℕ)
  | pop (t : Tid)
  | callbackEnd (t : Tid) (threw : Bool)
  | finish (t : Tid)

def DrainState.message {Msg : Type} : DrainState Msg → Option Msg
  | .callback message => some message
  | _ => .none

def DrainState.inCallback {Msg : Type} : DrainState Msg → Bool
  | .callback _ => true
  | _ => false

namespace BusState
variable {Tid Ty : Type} {Val : Ty → Type} [DecidableEq Tid]

def setCall (s : BusState Tid Val) (t : Tid) (call : BusCall Tid Val) : BusState Tid Val :=
  { s with threads := Function.update s.threads t { s.threads t with call := call } }

def setDrain (s : BusState Tid Val) (t : Tid) (drain : Option ℕ) : BusState Tid Val :=
  { s with threads := Function.update s.threads t { s.threads t with drain := drain } }

def addReturn (s : BusState Tid Val) (t : Tid) (result : BusReturn) : BusState Tid Val :=
  { s with history := { s.history with returns := s.history.returns ++ [(t, result)] } }

def boxThread (s : BusState Tid Val) (block : ℕ) (t : Tid) :
    MailboxThread (Publication Tid Val) :=
  match s.boxes block with
  | some sub => sub.state.threads t
  | none => {}

def callback (s : BusState Tid Val) (t : Tid) : Option (ℕ × Publication Tid Val) :=
  (s.threads t).drain.bind fun block =>
    (s.boxThread block t).drain.message.map fun p => (block, p)

/-- User code runs on the thread: outside any drain, or inside a callback. -/
def userCode (s : BusState Tid Val) (t : Tid) : Bool :=
  match (s.threads t).call, (s.threads t).drain with
  | .none, none => true
  | .none, some block => (s.boxThread block t).drain.inCallback
  | _, _ => false

def onBox (s : BusState Tid Val) (block : ℕ) (a : MailboxAction Tid (Publication Tid Val)) :
    Option (BusState Tid Val) :=
  match s.boxes block with
  | some sub =>
    (sub.state.step a).map fun state =>
      { s with boxes := Function.update s.boxes block (some { sub with state := state }) }
  | none => none

def delivered (s : BusState Tid Val) (t : Tid) (c : PublishCall Tid Val) (block : ℕ)
    (outcome : DeliveryOutcome) : BusState Tid Val :=
  { s.setCall t (.dispatching { c with result := c.result.add outcome }) with
    history := { s.history with
      outcomes := s.history.outcomes ++ [(c.publication.call, block, outcome)] } }

/-- `publish` leaves the scope of its dispatch lock. -/
def finishPublish (s : BusState Tid Val) (t : Tid) (c : PublishCall Tid Val)
    (result : BusReturn) : BusState Tid Val :=
  (({ s with dispatch := Function.update s.dispatch c.publication.topic none }).setCall t
    .none).addReturn t result

/-- A step of the thread's own wait on `block`, whose end is the return of the call. -/
def waitStep (s : BusState Tid Val) (t : Tid) (a : MailboxAction Tid (Publication Tid Val)) :
    Option (BusState Tid Val) :=
  match (s.threads t).call with
  | .waiting block =>
    (s.onBox block a).map fun s' =>
      if (s'.boxThread block t).call = .none then s'.setCall t .none else s'
  | _ => none

/-- A step of the drain that the thread runs, whose end is the end of the task. -/
def drainStep (s : BusState Tid Val) (t : Tid) (a : MailboxAction Tid (Publication Tid Val)) :
    Option (BusState Tid Val) :=
  match (s.threads t).call, (s.threads t).drain with
  | .none, some block =>
    (s.onBox block a).map fun s' =>
      match (s'.boxThread block t).drain with
      | .none => s'.setDrain t none
      | _ => s'
  | _, _ => none

variable [DecidableEq Ty]

def step (s : BusState Tid Val) : BusAction Tid Val → Option (BusState Tid Val)
  | .advertise t topic contract =>
    if s.userCode t then
      match (TopicBus.advertise topic contract).run.run s.bus with
      | (.ok _, bus) =>
        some ({ s with
          bus := bus
          history := { s.history with
            registrations := s.history.registrations ++ [(topic, contract)] } }.addReturn t
          .advertised)
      | (.error e, bus) => some ({ s with bus := bus }.addReturn t (.error e))
    else none
  | .subscribe t topic contract options hasCallback =>
    if s.userCode t then
      match (TopicBus.subscribe topic contract options hasCallback s.history.created).run.run
          s.bus with
      | (.ok (id, block), bus) =>
        some ({ s with
          bus := bus
          boxes := Function.update s.boxes s.history.created (some {
            topic := topic, contract := contract, options := options, id := id
            state := { block := block } })
          history := { s.history with
            created := s.history.created + 1
            registrations := s.history.registrations ++ [(topic, contract)]
            ids := s.history.ids ++ [id] } }.addReturn t (.subscribed id))
      | (.error e, bus) => some ({ s with bus := bus }.addReturn t (.error e))
    else none
  | .publish t topic typeId schemaHash message isRemote order =>
    if s.userCode t then
      let p : Publication Tid Val :=
        ⟨s.history.publishes, t, topic, typeId, schemaHash, message, isRemote⟩
      let called := { s with history := { s.history with publishes := s.history.publishes + 1 } }
      -- the snapshot of the live mailboxes is taken under the registry lock
      match (TopicBus.publish topic p.contract s.expired).run.run s.bus with
      | (.ok live, bus) =>
        if order.isPerm live then
          some ({ called with bus := bus }.setCall t
            (.locking ⟨p, order, { matchedSubscribers := live.length }⟩))
        else none
      | (.error e, bus) => some ({ called with bus := bus }.addReturn t (.error e))
    else none
  -- the `dispatch_mutex` of the topic, after the registry has been unlocked
  | .lockDispatch t =>
    match (s.threads t).call with
    | .locking c =>
      if (s.dispatch c.publication.topic).isNone then
        some ({ s with
          dispatch := Function.update s.dispatch c.publication.topic (some t)
          history := { s.history with
            dispatched := s.history.dispatched ++ [c.publication] } }.setCall t (.dispatching c))
      else none
    | _ => none
  | .enqueue t =>
    match (s.threads t).call with
    | .dispatching ⟨p, block :: rest, result⟩ =>
      match s.boxes block with
      | some sub =>
        let r := sub.state.block.enqueuePush p p.isRemote
        (s.onBox block (.enqueue t p p.isRemote)).map fun s' =>
          if r.mustSchedule then s'.setCall t (.enqueueing ⟨p, rest, result⟩ block)
          else s'.delivered t ⟨p, rest, result⟩ block r.outcome
      | none => none
    | _ => none
  | .post t result =>
    match (s.threads t).call with
    | .enqueueing c block =>
      match (s.boxThread block t).call with
      | .posting outcome =>
        (s.onBox block (.post t result)).map fun s' =>
          match result with
          | .accepted => s'.delivered t c block outcome
          | _ => s'
      | _ => none
    | _ => none
  -- an exception of the executor ends the whole `publish`
  | .cleanup t =>
    match (s.threads t).call with
    | .enqueueing c block =>
      match (s.boxThread block t).call with
      | .cleaning outcome threw =>
        (s.onBox block (.cleanup t)).map fun s' =>
          if threw then s'.finishPublish t c .publishThrew
          else s'.delivered t c block { outcome with enqueued := false, executorRejected := true }
      | _ => none
    | _ => none
  | .unlockDispatch t =>
    match (s.threads t).call with
    | .dispatching ⟨p, [], result⟩ => some (s.finishPublish t ⟨p, [], result⟩ (.published result))
    | _ => none
  | .unsubscribe t topic id =>
    if s.userCode t then some { s with bus := s.bus.unsubscribe topic id } else none
  | .cancel t block => if s.userCode t then s.onBox block (.cancel t) else none
  | .cancelAndWait t block =>
    if s.userCode t then
      (s.onBox block (.cancelAndWait t)).map fun s' => s'.setCall t (.waiting block)
    else none
  | .checkWait t => s.waitStep t (.checkWait t)
  | .wake t => s.waitStep t (.wake t)
  | .recheck t => s.waitStep t (.recheck t)
  -- the last owner may let go at any time
  | .expire block => some { s with expired := Function.update s.expired block true }
  -- the section of `stop`; the cancels come after it
  | .stop t order =>
    if s.userCode t then
      if order.isPerm (s.bus.stop s.expired).2 then
        some ({ s with bus := (s.bus.stop s.expired).1 }.setCall t (.stopping order))
      else none
    else none
  | .stopCancel t =>
    match (s.threads t).call with
    | .stopping (block :: rest) =>
      (s.onBox block (.cancel t)).map fun s' => s'.setCall t (.stopping rest)
    | _ => none
  | .stopReturn t =>
    match (s.threads t).call with
    | .stopping [] => some ((s.setCall t .none).addReturn t .stopped)
    | _ => none
  -- the executor may give the thread any mailbox with a posted drain
  | .startDrain t block =>
    match (s.threads t).call, (s.threads t).drain with
    | .none, none => (s.onBox block (.startDrain t)).map fun s' => s'.setDrain t (some block)
    | _, _ => none
  | .pop t => s.drainStep t (.pop t)
  | .callbackEnd t threw => s.drainStep t (.callbackEnd t threw)
  | .finish t => s.drainStep t (.finish t)

end BusState

def busSystem (Tid : Type) {Ty : Type} (Val : Ty → Type) [DecidableEq Tid] [DecidableEq Ty] :
    TransitionSystem (BusState Tid Val) (BusAction Tid Val) where
  init s := s = {}
  step := BusState.step

end RobotMiddleware
