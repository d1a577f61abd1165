import RobotMiddleware.ClientLoopModel

/-! What `client_loop` counts and what it holds, in every round and between any two of its
operations. -/
namespace RobotMiddleware

structure ClientAccount where
  connectAttempts : ℕ
  successfulConnections : ℕ
  reconnects : ℕ
  disconnects : ℕ
  connectedBefore : Bool
  isConnected : Bool
  deriving DecidableEq

def BridgeClient.account (s : BridgeClient) : ClientAccount where
  connectAttempts := s.connectAttempts
  successfulConnections := s.successfulConnections
  reconnects := s.reconnects
  disconnects := s.disconnects
  connectedBefore := s.connectedBefore
  isConnected := s.isConnected

/-- The part of a round that the worker is in. `outside` is a worker that runs no `client_loop`,
and `ended` is what comes after the end of the connection. -/
inductive WorkerPart
  | outside
  | checking
  | connecting
  | connected
  | caught
  | cleaning
  | ended
  | left
  deriving DecidableEq, Repr

def BridgeWorker.part : BridgeWorker → WorkerPart
  | .none | .manual _ => .outside
  | .checking => .checking
  | .connecting => .connecting
  | .connected _ _ => .connected
  | .caught _ => .caught
  | .cleaning _ => .cleaning
  | .deciding _ | .waiting | .undefined => .ended
  | .left => .left

/-- The parts that a step of `BridgeClient` may lead to from another one, apart from the two steps
that are taken apart. -/
def WorkerPart.next : WorkerPart → List WorkerPart
  | .outside => [.left]
  | .checking => [.connecting, .left]
  | .connecting => [.caught]
  | .connected => [.caught, .cleaning]
  | .caught => [.cleaning]
  | .cleaning => [.left]
  | .ended => [.checking]
  | .left => []

def ClientAccount.move (account : ClientAccount) : WorkerPart → WorkerPart → ClientAccount
  | .checking, .connecting => { account with connectAttempts := account.connectAttempts + 1 }
  | .checking, .left | .cleaning, .left => { account with isConnected := false }
  | _, _ => account

namespace ClientAccount
variable (account : ClientAccount) (part part' : WorkerPart)

theorem successfulConnections_move :
    (account.move part part').successfulConnections = account.successfulConnections := by
  unfold move
  split <;> rfl

theorem reconnects_move : (account.move part part').reconnects = account.reconnects := by
  unfold move
  split <;> rfl

theorem connectedBefore_move :
    (account.move part part').connectedBefore = account.connectedBefore := by
  unfold move
  split <;> rfl

theorem connectAttempts_le_move :
    account.connectAttempts ≤ (account.move part part').connectAttempts := by
  unfold move
  split
  · exact Nat.le_succ _
  all_goals exact Nat.le_refl _

end ClientAccount

namespace BridgeClient
variable {s s' : BridgeClient}

structure Moves (s s' : BridgeClient) : Prop where
  part : s'.worker.part = s.worker.part ∨ s'.worker.part ∈ s.worker.part.next
  account : s'.account = s.account.move s.worker.part s'.worker.part
  stopped : s'.stopped = s.stopped
  running : s'.running = s.running

theorem Moves.stay (hpart : s'.worker.part = s.worker.part) (haccount : s'.account = s.account)
    (hstopped : s'.stopped = s.stopped := by rfl) (hrunning : s'.running = s.running := by rfl) :
    Moves s s' := by
  refine ⟨.inl hpart, ?_, hstopped, hrunning⟩
  rw [hpart, haccount]
  cases s.worker.part <;> rfl

theorem Moves.to (before after : WorkerPart) (hbefore : s.worker.part = before)
    (hafter : s'.worker.part = after) (hnext : after ∈ before.next)
    (haccount : s'.account = s.account.move before after)
    (hstopped : s'.stopped = s.stopped := by rfl) (hrunning : s'.running = s.running := by rfl) :
    Moves s s' := by
  subst hbefore hafter
  exact ⟨.inr hnext, haccount, hstopped, hrunning⟩

/-- No operation on a connection counts it. -/
theorem connectionStep_moves {options : ReconnectOptions} {connection : ClientConnection}
    {phase : ConnectionPhase} {action : WorkerAction}
    (hworker : s.worker = .connected connection phase)
    (hs : s.connectionStep options connection phase action = some s') : Moves s s' := by
  have hpart : s.worker.part = .connected := congrArg BridgeWorker.part hworker
  unfold connectionStep at hs
  split at hs
  case h_2 =>
    split at hs
    · split at hs
      · cases hs
        exact .stay hpart.symm rfl
      · cases hs
        exact .stay hpart.symm rfl
    · cases hs
      exact .stay hpart.symm rfl
  case h_5 =>
    obtain ⟨-, hs⟩ := Option.ite_none_right_eq_some.mp hs
    split at hs
    · cases hs
      exact .stay hpart.symm rfl
    · cases hs
      exact .stay hpart.symm rfl
  case h_6 =>
    split at hs
    · cases hs
      exact .stay hpart.symm rfl
    · cases hs
      exact .stay hpart.symm rfl
    · cases hs
      exact .to .connected .caught hpart rfl (by decide) rfl
  case h_9 =>
    obtain ⟨-, hs⟩ := Option.ite_none_left_eq_some.mp hs
    cases hs
    exact .stay hpart.symm rfl
  case h_10 =>
    obtain ⟨-, hs⟩ := Option.ite_none_right_eq_some.mp hs
    cases hs
    exact .stay hpart.symm rfl
  case h_12 =>
    split at hs
    · cases hs
      exact .to .connected .caught hpart rfl (by decide) rfl
    · cases hs
      exact .stay hpart.symm rfl
  -- what remains ends the connection, goes on with it, or is no step
  all_goals first
    | cases hs
      exact .stay hpart.symm rfl
    | cases hs
      exact .to .connected .caught hpart rfl (by decide) rfl
    | cases hs
      exact .to .connected .cleaning hpart rfl (by decide) rfl
    | cases hs

/-- The two steps that are not in here are the ones that count a connection. -/
theorem workerStep_moves {action : WorkerAction} (hsplit : s.worker.isSplit action = false)
    (hs : s.workerStep s.worker action = some s') : Moves s s' := by
  cases hworker : s.worker with
  | none => rw [hworker] at hs; cases hs
  | left => rw [hworker] at hs; cases hs
  | undefined => rw [hworker] at hs; cases hs
  | manual phase =>
    have hpart : s.worker.part = .outside := congrArg BridgeWorker.part hworker
    rw [hworker] at hs
    simp only [workerStep] at hs
    unfold manualStep at hs
    split at hs
    case h_1 =>
      cases hs
      by_cases hgoing : s.going = true
      · have hstays : (s.setWorker (if s.going = true then .manual .popping else .left)).worker.part
            = .outside := by simp only [setWorker, hgoing, if_true, BridgeWorker.part]
        exact .stay (hstays.trans hpart.symm) rfl
      · exact .to .outside .left hpart (by simp [setWorker, hgoing, BridgeWorker.part])
          (by decide) rfl
    case h_2 =>
      split at hs
      · cases hs
        exact .stay hpart.symm rfl
      · cases hs
        exact .stay hpart.symm rfl
    case h_3 =>
      cases hs
      exact .to .outside .left hpart rfl (by decide) rfl
    all_goals first
      | cases hs
        exact .stay hpart.symm rfl
      | cases hs
  | checking =>
    have hpart : s.worker.part = .checking := congrArg BridgeWorker.part hworker
    rw [hworker] at hs
    cases action with
    | next =>
      simp only [workerStep] at hs
      split at hs
      · cases hs
        exact .to .checking .connecting hpart rfl (by decide) rfl
      · cases hs
        exact .to .checking .left hpart rfl (by decide) rfl
    | _ => cases hs
  | connecting =>
    have hpart : s.worker.part = .connecting := congrArg BridgeWorker.part hworker
    rw [hworker] at hs hsplit
    cases action with
    | connect now => cases hsplit
    | fail =>
      cases hs
      exact .to .connecting .caught hpart rfl (by decide) rfl
    | _ => cases hs
  | connected connection phase =>
    rw [hworker] at hs
    obtain ⟨options, -, hs⟩ := Option.bind_eq_some_iff.mp hs
    exact connectionStep_moves hworker hs
  | caught connection =>
    have hpart : s.worker.part = .caught := congrArg BridgeWorker.part hworker
    rw [hworker] at hs
    cases action with
    | next =>
      cases hs
      exact .to .caught .cleaning hpart rfl (by decide) rfl
    | _ => cases hs
  | cleaning connection =>
    have hpart : s.worker.part = .cleaning := congrArg BridgeWorker.part hworker
    rw [hworker] at hs hsplit
    cases action with
    | next => cases hsplit
    | fail =>
      cases hs
      exact .to .cleaning .left hpart rfl (by decide) rfl
    | _ => cases hs
  | deciding connection =>
    have hpart : s.worker.part = .ended := congrArg BridgeWorker.part hworker
    rw [hworker] at hs
    cases action with
    | next =>
      simp only [workerStep] at hs
      split at hs
      · cases hs
        exact .stay hpart.symm rfl
      · cases hs
        exact .to .ended .checking hpart rfl (by decide) rfl
    | _ => cases hs
  | waiting =>
    have hpart : s.worker.part = .ended := congrArg BridgeWorker.part hworker
    rw [hworker] at hs
    cases action with
    | next =>
      obtain ⟨options, -, hs⟩ := Option.bind_eq_some_iff.mp hs
      split at hs
      · cases hs
        exact .to .ended .checking hpart rfl (by decide) rfl
      · cases hs
        exact .stay hpart.symm rfl
    | _ => cases hs

structure AccountKept (s s' : BridgeClient) : Prop where
  account : s'.account = s.account
  worker : s'.worker = s.worker ∨
    s.worker = .none ∧ (s'.worker.part = .outside ∨ s'.worker = .checking)

theorem step_account {action : ClientAction} (hworker : ∀ a, action ≠ .worker a)
    (hs : s.step action = some s') : AccountKept s s' := by
  cases action with
  | worker a => exact absurd rfl (hworker a)
  | setFrameSender =>
    obtain ⟨hfree, hs⟩ := Option.ite_none_right_eq_some.mp hs
    cases hs
    rw [Bool.and_eq_true, decide_eq_true_iff] at hfree
    exact ⟨rfl, .inr ⟨hfree.2, .inl rfl⟩⟩
  | startTcpClient options =>
    simp only [step] at hs
    split at hs
    · obtain ⟨hfree, hs⟩ := Option.ite_none_right_eq_some.mp hs
      cases hs
      rw [Bool.and_eq_true, decide_eq_true_iff] at hfree
      exact ⟨rfl, .inr ⟨hfree.2, .inr rfl⟩⟩
    · cases hs
      exact ⟨rfl, .inl rfl⟩
  | emitFrame frame =>
    cases hs
    exact ⟨rfl, .inl rfl⟩
  | emitCheck call | emitThrow call =>
    simp only [step] at hs
    split at hs
    · cases hs
      exact ⟨rfl, .inl rfl⟩
    · cases hs
  | emitPush call =>
    simp only [step] at hs
    split at hs
    · split at hs
      · cases hs
        exact ⟨rfl, .inl rfl⟩
      · cases hs
        exact ⟨rfl, .inl rfl⟩
    · cases hs
  | emitCount call =>
    simp only [step] at hs
    split at hs
    · cases hs
      exact ⟨rfl, .inl rfl⟩
    · cases hs
      exact ⟨rfl, .inl rfl⟩
    · cases hs
  | stop =>
    cases hs
    exact ⟨rfl, .inl rfl⟩
  | stopRunning | close =>
    obtain ⟨-, hs⟩ := Option.ite_none_right_eq_some.mp hs
    cases hs
    exact ⟨rfl, .inl rfl⟩

end BridgeClient

structure ClientLedger where
  account : ClientAccount
  connection : Option ℕ
  loopConnection : Option ℕ
  connectionToClose : Option ℕ

namespace ClientLedger
variable {l l' : ClientLedger} {part part' : WorkerPart} {phase : RoundPhase}

/-- `connection` is held by `client_`, `own` by the inner `try` block, and `owed` connections have
been counted as successful and not yet as disconnected. -/
structure Books (l : ClientLedger) (connection own : Option ℕ) (connected : Bool) (owed : ℕ) :
    Prop where
  held : l.connection = connection
  own : l.loopConnection = own
  connected : l.account.isConnected = connected
  counted : l.account.successfulConnections = l.account.disconnects + owed

def Settled (l : ClientLedger) : Prop :=
  l.Books none none false 0

def RoundAt (l : ClientLedger) : WorkerPart → Prop
  | .ended | .left => l.Settled
  | .outside | .checking => l.Settled ∧ l.connectionToClose = none
  | .connecting => l.Settled ∧ l.account.successfulConnections < l.account.connectAttempts
  | .connected => ∃ id, l.Books (some id) (some id) true 1
  -- without a connection the round comes here too
  | .caught | .cleaning => l.Settled ∨ ∃ id, l.Books (some id) none true 1

def PhaseAt (l : ClientLedger) (part : WorkerPart) : RoundPhase → Prop
  | .following => l.RoundAt part
  | .setting | .storing => part = .connecting ∧
      l.account.successfulConnections < l.account.connectAttempts ∧
      ∃ id, l.Books none (some id) false 0
  | .flagging => part = .connecting ∧
      l.account.successfulConnections < l.account.connectAttempts ∧
      ∃ id, l.Books (some id) (some id) false 0
  | .counting => part = .connecting ∧
      l.account.successfulConnections < l.account.connectAttempts ∧
      ∃ id, l.Books (some id) (some id) true 0
  | .countingReconnect | .entering => part = .connecting ∧ ∃ id, l.Books (some id) (some id) true 1
  | .closing | .exchanging => part = .cleaning ∧ (l.Settled ∨ l.Books none none true 1)
  | .countingDisconnect => part = .cleaning ∧ l.Books none none false 1
  | .abandoned => part = .left ∧ ∃ held, ∃ owed ≤ 1, l.Books held none false owed

/-- `reconnects` follows `successful_connections` with one operation in between. -/
structure Reconnects (account : ClientAccount) (connections : ℕ) : Prop where
  reconnects : account.reconnects = connections - 1
  before : account.connectedBefore = true ↔ 0 < connections

def known (l : ClientLedger) : RoundPhase → ℕ
  | .countingReconnect => l.account.successfulConnections - 1
  | _ => l.account.successfulConnections

structure Accounted (l : ClientLedger) (part : WorkerPart) (phase : RoundPhase) : Prop where
  books : l.PhaseAt part phase
  attempts : l.account.successfulConnections ≤ l.account.connectAttempts
  reconnects : Reconnects l.account (l.known phase)

/-- Whatever the phase, at most one connection is owed, and at most one is referred to. -/
theorem PhaseAt.exists_books (h : l.PhaseAt part phase) :
    ∃ held own connected, ∃ owed ≤ 1, l.Books held own connected owed ∧
      (held = none ∨ own = none ∨ held = own) ∧ (phase = .closing → held = none ∧ own = none) := by
  cases phase with
  | following =>
    cases part with
    | ended | left => exact ⟨_, _, _, 0, by omega, h, .inl rfl, nofun⟩
    | outside | checking | connecting => exact ⟨_, _, _, 0, by omega, h.1, .inl rfl, nofun⟩
    | connected =>
      obtain ⟨id, hbooks⟩ := h
      exact ⟨_, _, _, 1, by omega, hbooks, .inr (.inr rfl), nofun⟩
    | caught | cleaning =>
      rcases h with hsettled | ⟨id, hbooks⟩
      · exact ⟨_, _, _, 0, by omega, hsettled, .inl rfl, nofun⟩
      · exact ⟨_, _, _, 1, by omega, hbooks, .inr (.inl rfl), nofun⟩
  | setting | storing =>
    obtain ⟨-, -, id, hbooks⟩ := h
    exact ⟨_, _, _, 0, by omega, hbooks, .inl rfl, nofun⟩
  | flagging | counting =>
    obtain ⟨-, -, id, hbooks⟩ := h
    exact ⟨_, _, _, 0, by omega, hbooks, .inr (.inr rfl), nofun⟩
  | countingReconnect | entering =>
    obtain ⟨-, id, hbooks⟩ := h
    exact ⟨_, _, _, 1, by omega, hbooks, .inr (.inr rfl), nofun⟩
  | closing | exchanging =>
    rcases h.2 with hsettled | hbooks
    · exact ⟨_, _, _, 0, by omega, hsettled, .inl rfl, fun _ => ⟨rfl, rfl⟩⟩
    · exact ⟨_, _, _, 1, by omega, hbooks, .inl rfl, fun _ => ⟨rfl, rfl⟩⟩
  | countingDisconnect => exact ⟨_, _, _, 1, by omega, h.2, .inl rfl, nofun⟩
  | abandoned =>
    obtain ⟨-, held, owed, howed, hbooks⟩ := h
    exact ⟨_, _, _, owed, howed, hbooks, .inr (.inl rfl), nofun⟩

structure Follows (l l' : ClientLedger) (part part' : WorkerPart) : Prop where
  account : l'.account = l.account.move part part'
  held : l'.connection = l.connection
  own : l'.loopConnection = if part = .connected ∧ part' ≠ .connected then none else l.loopConnection
  toClose : l'.connectionToClose = if part' = .checking then none else l.connectionToClose

/-- A step that counts no connection, of the same references to within the loop's own. -/
theorem Books.follow {held own own' : Option ℕ} {connected connected' : Bool} {owed : ℕ}
    (h : l.Books held own connected owed) (hheld : l'.connection = l.connection)
    (hown : l'.loopConnection = own') (hconnected : l'.account.isConnected = connected')
    (hsuccessful : l'.account.successfulConnections = l.account.successfulConnections)
    (hdisconnects : l'.account.disconnects = l.account.disconnects) :
    l'.Books held own' connected' owed where
  held := hheld.trans h.held
  own := hown
  connected := hconnected
  counted := by
    rw [hsuccessful, hdisconnects]
    exact h.counted

/-- A step that `BridgeClient` describes keeps the books. -/
theorem RoundAt.follow (h : l.RoundAt part) (hl : l.Follows l' part part')
    (hattempts : l.account.successfulConnections ≤ l.account.connectAttempts)
    (hpart : part' = part ∨ part' ∈ part.next) (hcleaning : part' ≠ part → part ≠ .cleaning) :
    l'.RoundAt part' := by
  obtain ⟨haccount, hheld, hown, htoClose⟩ := hl
  by_cases hsame : part' = part
  · -- within a part only the reference of the loop body may go
    subst hsame
    have hsame : l'.account = l.account := by
      rw [haccount]
      cases part' <;> rfl
    have hkept : l'.loopConnection = l.loopConnection := by
      rw [hown, if_neg fun hleft => hleft.2 hleft.1]
    have hbooks {held own : Option ℕ} {connected : Bool} {owed : ℕ}
        (hb : l.Books held own connected owed) : l'.Books held own connected owed :=
      ⟨hheld.trans hb.held, hkept.trans hb.own, hsame ▸ hb.connected, hsame ▸ hb.counted⟩
    cases part' with
    | ended | left => exact hbooks h
    | outside => exact ⟨hbooks h.1, htoClose.trans h.2⟩
    | checking => exact ⟨hbooks h.1, htoClose⟩
    | connecting => exact ⟨hbooks h.1, hsame ▸ h.2⟩
    | connected => exact h.imp fun id => hbooks
    | caught | cleaning => exact h.imp hbooks fun hid => hid.imp fun id => hbooks
  · have hnext := hpart.resolve_left hsame
    cases part with
    | left => contradiction
    | cleaning => exact absurd rfl (hcleaning hsame)
    | outside =>
      obtain rfl := List.mem_singleton.mp hnext
      have hconnected : l'.account.isConnected = false := haccount ▸ h.1.connected
      exact h.1.follow hheld (hown.trans h.1.own) hconnected (by rw [haccount]; rfl)
        (by rw [haccount]; rfl)
    | checking =>
      rcases List.mem_pair.mp hnext with rfl | rfl
      · have hconnected : l'.account.isConnected = false := haccount ▸ h.1.connected
        have hlt : l'.account.successfulConnections < l'.account.connectAttempts := by
          rw [haccount]
          exact Nat.lt_succ_of_le hattempts
        exact ⟨h.1.follow hheld (hown.trans h.1.own) hconnected (by rw [haccount]; rfl)
          (by rw [haccount]; rfl), hlt⟩
      · exact h.1.follow hheld (hown.trans h.1.own) (by rw [haccount]; rfl)
          (by rw [haccount]; rfl) (by rw [haccount]; rfl)
    | connecting =>
      obtain rfl := List.mem_singleton.mp hnext
      have hconnected : l'.account.isConnected = false := haccount ▸ h.1.connected
      exact .inl (h.1.follow hheld (hown.trans h.1.own) hconnected (by rw [haccount]; rfl)
        (by rw [haccount]; rfl))
    | connected =>
      obtain ⟨id, hbooks⟩ := h
      -- the reference of the inner block goes, that of `client_` stays
      have hconnected : l'.account.isConnected = true := haccount ▸ hbooks.connected
      rcases List.mem_pair.mp hnext with rfl | rfl
      · exact .inr ⟨id, hbooks.follow hheld hown hconnected (by rw [haccount]; rfl)
          (by rw [haccount]; rfl)⟩
      · exact .inr ⟨id, hbooks.follow hheld hown hconnected (by rw [haccount]; rfl)
          (by rw [haccount]; rfl)⟩
    | caught =>
      obtain rfl := List.mem_singleton.mp hnext
      have hbooks {held own : Option ℕ} {connected : Bool} {owed : ℕ}
          (hb : l.Books held own connected owed) : l'.Books held own connected owed :=
        hb.follow hheld (hown.trans hb.own) (haccount ▸ hb.connected) (by rw [haccount]; rfl)
          (by rw [haccount]; rfl)
      exact h.imp hbooks fun hid => hid.imp fun id => hbooks
    | ended =>
      obtain rfl := List.mem_singleton.mp hnext
      have hconnected : l'.account.isConnected = false := haccount ▸ h.connected
      exact ⟨h.follow hheld (hown.trans h.own) hconnected (by rw [haccount]; rfl)
        (by rw [haccount]; rfl), htoClose⟩

/-- Such a step counts no connection, and at most an attempt. -/
theorem Follows.counts (hl : l.Follows l' part part')
    (h : l.account.successfulConnections ≤ l.account.connectAttempts)
    (hreconnects : Reconnects l.account l.account.successfulConnections) :
    l'.account.successfulConnections ≤ l'.account.connectAttempts ∧
      Reconnects l'.account l'.account.successfulConnections := by
  rw [hl.account, ClientAccount.successfulConnections_move]
  refine ⟨h.trans (ClientAccount.connectAttempts_le_move _ _ _), ?_, ?_⟩
  · rw [ClientAccount.reconnects_move]
    exact hreconnects.reconnects
  · rw [ClientAccount.connectedBefore_move]
    exact hreconnects.before

theorem Accounted.follow (h : l.Accounted part .following) (hl : l.Follows l' part part')
    (hpart : part' = part ∨ part' ∈ part.next) (hcleaning : part' ≠ part → part ≠ .cleaning) :
    l'.Accounted part' .following := by
  obtain ⟨hattempts, hreconnects⟩ := hl.counts h.attempts h.reconnects
  exact ⟨RoundAt.follow h.books hl h.attempts hpart hcleaning, hattempts, hreconnects⟩

/-- What an exception past the inner handler leaves behind is owed for ever. -/
theorem Accounted.abandon (h : l.Accounted .cleaning .following)
    (hl : l.Follows l' .cleaning .left) : l'.Accounted .left .abandoned := by
  obtain ⟨hattempts, hreconnects⟩ := hl.counts h.attempts h.reconnects
  refine ⟨⟨rfl, ?_⟩, hattempts, hreconnects⟩
  have hbooks {held : Option ℕ} {connected : Bool} {owed : ℕ}
      (hb : l.Books held none connected owed) : l'.Books held none false owed :=
    hb.follow hl.held (hl.own.trans hb.own) (by rw [hl.account]; rfl) (by rw [hl.account]; rfl)
      (by rw [hl.account]; rfl)
  rcases h.books with hsettled | ⟨id, hid⟩
  · exact ⟨none, 0, by omega, hbooks hsettled⟩
  · exact ⟨some id, 1, by omega, hbooks hid⟩

end ClientLedger

namespace ClientRun
variable {Call : Type} {s s' : ClientRun Call}

def ledger (s : ClientRun Call) : ClientLedger where
  account := s.client.account
  connection := s.connection
  loopConnection := s.loopConnection
  connectionToClose := s.connectionToClose

def Refers (s : ClientRun Call) (id : ℕ) : Prop :=
  s.connection = some id ∨ s.loopConnection = some id ∨
    (s.phase = .closing ∧ s.connectionToClose = some id)

def Opened (s : ClientRun Call) : Prop :=
  ∀ id ∈ s.openConnections, s.Refers id

structure Sound (s : ClientRun Call) : Prop where
  accounted : s.ledger.Accounted s.client.worker.part s.phase
  opened : s.Opened

@[simp] theorem mem_close {connection : Option ℕ} {id : ℕ} :
    id ∈ (s.close connection).openConnections ↔ id ∈ s.openConnections ∧ connection ≠ some id := by
  simp [close]

theorem Opened.close {connection : Option ℕ} (h : s.Opened) : (s.close connection).Opened :=
  fun id hid => h id (mem_close.mp hid).1

/-- The reference of the inner block goes, and with the last one the connection is closed. -/
theorem Opened.release (h : s.Opened) : s.release.Opened := by
  intro id hid
  unfold ClientRun.release at hid ⊢
  split
  case isTrue hheld =>
    rw [if_pos hheld] at hid
    rcases h id hid with hconnection | hloop | hclosing
    · exact .inl hconnection
    · exact .inl (hheld.trans hloop)
    · exact .inr (.inr hclosing)
  case isFalse hheld =>
    rw [if_neg hheld] at hid
    obtain ⟨hopen, hother⟩ := mem_close.mp hid
    rcases h id hopen with hconnection | hloop | hclosing
    · exact .inl hconnection
    · exact absurd hloop hother
    · exact .inr (.inr hclosing)

/-- The reference of the loop body goes, to a connection that has been closed. -/
theorem Opened.drop (h : s.Opened) (hphase : s.phase = .following) :
    Opened { s with connectionToClose := none } := by
  intro id hid
  rcases h id hid with hconnection | hloop | ⟨hclosing, -⟩
  · exact .inl hconnection
  · exact .inr (.inl hloop)
  · rw [hphase] at hclosing
    contradiction

/-- Outside of `closing` the phase does not matter. -/
theorem Opened.phase (h : s.Opened) (hphase : s.phase ≠ .closing) (phase : RoundPhase) :
    Opened { s with phase := phase } := by
  intro id hid
  rcases h id hid with hconnection | hloop | ⟨hclosing, -⟩
  · exact .inl hconnection
  · exact .inr (.inl hloop)
  · exact absurd hclosing hphase

theorem opened_ite {p : Prop} [Decidable p] {t : ClientRun Call} (ht : t.Opened) (h : s.Opened) :
    (if p then t else s).Opened := by
  split
  · exact ht
  · exact h

theorem phase_release : s.release.phase = s.phase := by
  unfold release
  split <;> rfl

end ClientRun

theorem BridgeWorker.isConnected_iff {worker : BridgeWorker} :
    worker.isConnected = true ↔ worker.part = .connected := by
  cases worker <;> simp [BridgeWorker.isConnected, BridgeWorker.part]

theorem BridgeWorker.eq_checking_iff {worker : BridgeWorker} :
    worker = .checking ↔ worker.part = .checking := by
  cases worker <;> simp [BridgeWorker.part]

namespace ClientRun
variable {Call : Type} {s s' : ClientRun Call}

theorem phase_follow {before after : BridgeWorker} : (s.follow before after).phase = s.phase := by
  unfold follow
  dsimp only
  split_ifs <;> first | rfl | exact phase_release

theorem client_follow {before after : BridgeWorker} :
    (s.follow before after).client = s.client := by
  unfold follow release
  dsimp only
  split_ifs <;> rfl

/-- What a step of the worker does to the references. -/
theorem follows_follow {client : BridgeClient} (h : s.client.Moves client) :
    s.ledger.Follows ({ s with client := client }.follow s.client.worker client.worker).ledger
      s.client.worker.part client.worker.part := by
  have hleft : (s.client.worker.isConnected && !client.worker.isConnected) = true ↔
      s.client.worker.part = .connected ∧ client.worker.part ≠ .connected := by
    rw [Bool.and_eq_true, Bool.not_eq_true', ← Bool.not_eq_true, BridgeWorker.isConnected_iff,
      BridgeWorker.isConnected_iff]
  refine ⟨?_, ?_, ?_, ?_⟩
  · exact (congrArg BridgeClient.account client_follow).trans h.account
  · show (follow _ _ _).connection = _
    unfold follow release
    dsimp only
    split_ifs <;> rfl
  · simp only [← hleft]
    show (follow _ _ _).loopConnection = _
    unfold follow release
    dsimp only
    split_ifs <;> rfl
  · simp only [← BridgeWorker.eq_checking_iff]
    show (follow _ _ _).connectionToClose = _
    unfold follow release
    dsimp only
    split_ifs <;> rfl

theorem Opened.follow {before after : BridgeWorker} (h : s.Opened)
    (hphase : s.phase = .following) : (s.follow before after).Opened := by
  have hclosed : (if before.isClosing then s.close s.loopConnection else s).Opened :=
    opened_ite h.close h
  have hleft := opened_ite (p := before.isConnected && !after.isConnected) hclosed.release hclosed
  refine opened_ite (hleft.drop ?_) hleft
  split_ifs <;> first | exact hphase | exact phase_release.trans hphase

/-- A step of the worker that is not taken apart. -/
theorem Sound.workerStep {action : WorkerAction} (h : s.Sound)
    (hs : s.clientStep (.worker action) = some s') : s'.Sound := by
  obtain ⟨hstart, hs⟩ := Option.ite_none_right_eq_some.mp hs
  rw [Bool.and_eq_true, decide_eq_true_iff, Bool.not_eq_true'] at hstart
  obtain ⟨hphase, hsplit⟩ := hstart
  obtain ⟨client, hclient, hs⟩ := Option.map_eq_some_iff.mp hs
  have hmoves : s.client.Moves client := BridgeClient.workerStep_moves hsplit hclient
  have hfollows := follows_follow hmoves
  have haccounted : s.ledger.Accounted s.client.worker.part .following := hphase ▸ h.accounted
  have hopened : (({ s with client := client } : ClientRun Call).follow s.client.worker
      client.worker).Opened := Opened.follow h.opened hphase
  have hstill : (({ s with client := client } : ClientRun Call).follow s.client.worker
      client.worker).phase = .following := phase_follow.trans hphase
  cases hworker : s.client.worker with
  | cleaning connection =>
    -- only the mutex may fail here, and the thread ends
    have hleft : client.worker.part = .left := by
      rw [hworker] at hsplit
      rw [BridgeClient.step, hworker] at hclient
      cases action with
      | next => cases hsplit
      | fail => cases hclient; rfl
      | _ => cases hclient
    have hs' : { ({ s with client := client } : ClientRun Call).follow s.client.worker
        client.worker with phase := .abandoned } = s' := by
      rw [hworker] at hs ⊢
      exact hs
    subst hs'
    have hbefore : s.client.worker.part = .cleaning := congrArg BridgeWorker.part hworker
    rw [hbefore, hleft] at hfollows
    rw [hbefore] at haccounted
    refine ⟨?_, hopened.phase (by rw [hstill]; decide) _⟩
    rw [client_follow, hleft]
    exact haccounted.abandon hfollows
  | _ =>
    have hcleaning : s.client.worker.part ≠ .cleaning := by
      rw [hworker]
      nofun
    have hs' : ({ s with client := client } : ClientRun Call).follow s.client.worker
        client.worker = s' := by
      rw [hworker] at hs ⊢
      exact hs
    subst hs'
    refine ⟨?_, hopened⟩
    rw [client_follow, hstill]
    exact haccounted.follow hfollows hmoves.part fun _ => hcleaning

theorem exists_client_of_beside {action : ClientAction} (hworker : ∀ a, action ≠ .worker a)
    (hs : s.clientStep action = some s') :
    ∃ client, s.client.step action = some client ∧ { s with client := client } = s' := by
  cases action with
  | worker a => exact absurd rfl (hworker a)
  | _ => exact Option.map_eq_some_iff.mp hs

/-- Another thread may start the worker, and nothing else that matters here. -/
theorem Sound.beside {client : BridgeClient} (h : s.Sound) (hclient : s.client.AccountKept client) :
    Sound { s with client := client } := by
  have hledger : ({ s with client := client } : ClientRun Call).ledger = s.ledger := by
    rw [ledger, hclient.account]
    rfl
  refine ⟨?_, h.opened⟩
  show ClientLedger.Accounted _ client.worker.part s.phase
  rw [hledger]
  obtain ⟨hbooks, hattempts, hreconnects⟩ := h.accounted
  refine ⟨?_, hattempts, hreconnects⟩
  rcases hclient.worker with hsame | ⟨hnone, hstart⟩
  · rw [hsame]
    exact hbooks
  · rw [hnone] at hbooks
    -- before it was started there was no round
    cases hphase : s.phase <;> rw [hphase] at hbooks
    case following =>
      rcases hstart with houtside | hchecking
      · rw [houtside]
        exact hbooks
      · rw [hchecking]
        exact hbooks
    all_goals exact absurd hbooks.1 (by decide)


theorem part_afterCleaning {worker : BridgeWorker} (h : worker.part = .cleaning) :
    (afterCleaning worker).part = .ended := by
  cases worker <;> first | rfl | exact absurd h (by simp [BridgeWorker.part])

/-- One operation at the start of a connection. -/
theorem Sound.start {t : ClientRun Call} (h : s.Sound) (hphase : s.phase = .setting ∨
    s.phase = .storing ∨ s.phase = .flagging ∨ s.phase = .counting ∨
    s.phase = .countingReconnect) (hs : s.nextStep s.phase = some t) : t.resume.Sound := by
  obtain ⟨⟨hbooks, hattempts, hreconnects, hbefore⟩, hopened⟩ := h
  rcases hphase with hphase | hphase | hphase | hphase | hphase <;>
    rw [hphase] at hs hbooks hreconnects hbefore <;> cases hs
  · exact ⟨⟨hbooks, hattempts, hreconnects, hbefore⟩, hopened.phase (by rw [hphase]; decide) _⟩
  · -- `client_->connection` held none before
    obtain ⟨hpart, hlt, id, hheld, hown, hconnected, hcounted⟩ := hbooks
    refine ⟨⟨⟨hpart, hlt, id, hown, hown, hconnected, hcounted⟩, hattempts, hreconnects,
      hbefore⟩, ?_⟩
    intro id hid
    rcases hopened id hid with hconnection | hloop | ⟨hclosing, -⟩
    · exact absurd (hheld.symm.trans hconnection) nofun
    · exact .inr (.inl hloop)
    · rw [hphase] at hclosing
      contradiction
  · obtain ⟨hpart, hlt, id, hheld, hown, -, hcounted⟩ := hbooks
    exact ⟨⟨⟨hpart, hlt, id, hheld, hown, rfl, hcounted⟩, hattempts, hreconnects, hbefore⟩,
      hopened.phase (by rw [hphase]; decide) _⟩
  · obtain ⟨hpart, hlt, id, hheld, hown, hconnected, hcounted⟩ := hbooks
    exact ⟨⟨⟨hpart, id, hheld, hown, hconnected, congrArg (· + 1) hcounted⟩, hlt, hreconnects,
      hbefore⟩, hopened.phase (by rw [hphase]; decide) _⟩
  · obtain ⟨hpart, id, hheld, hown, hconnected, hcounted⟩ := hbooks
    have hpositive : 0 < s.client.successfulConnections := by
      have hcounted : s.client.successfulConnections = s.client.disconnects + 1 := hcounted
      omega
    have hcount : (countReconnect s.client).reconnects = s.client.successfulConnections - 1 := by
      show (if s.client.connectedBefore = true then s.client.reconnects + 1
        else s.client.reconnects) = _
      have hreconnects : s.client.reconnects = s.client.successfulConnections - 1 - 1 := hreconnects
      have hbefore : s.client.connectedBefore = true ↔ 0 < s.client.successfulConnections - 1 :=
        hbefore
      split
      case isTrue hconnected =>
        have hmore := hbefore.mp hconnected
        omega
      case isFalse hconnected =>
        have hfirst := mt hbefore.mpr hconnected
        omega
    exact ⟨⟨⟨hpart, id, hheld, hown, hconnected, hcounted⟩, hattempts, hcount,
      iff_of_true rfl hpositive⟩, hopened.phase (by rw [hphase]; decide) _⟩

/-- One operation at the end of a round. -/
theorem Sound.finish {t : ClientRun Call} (h : s.Sound) (hphase : s.phase = .closing ∨
    s.phase = .exchanging ∨ s.phase = .countingDisconnect) (hs : s.nextStep s.phase = some t) :
    t.resume.Sound := by
  obtain ⟨⟨hbooks, hattempts, hreconnects, hbefore⟩, hopened⟩ := h
  rcases hphase with hphase | hphase | hphase <;>
    rw [hphase] at hs hbooks hreconnects hbefore
  · -- what was moved out is closed, and nothing else was referred to
    cases hs
    refine ⟨⟨hbooks, hattempts, hreconnects, hbefore⟩, ?_⟩
    intro id hid
    obtain ⟨hopen, hother⟩ := mem_close.mp hid
    rcases hopened id hopen with hconnection | hloop | ⟨-, hmoved⟩
    · exact .inl hconnection
    · exact .inr (.inl hloop)
    · exact absurd hmoved hother
  · obtain ⟨hpart, hbooks⟩ := hbooks
    have hended := part_afterCleaning hpart
    have hopened' := hopened.phase (by rw [hphase]; decide)
    by_cases hconnected : s.client.isConnected = true
    · simp only [nextStep, hconnected, if_true, Option.some.injEq] at hs
      subst hs
      rcases hbooks with hsettled | hbooks
      · exact absurd (hsettled.connected.symm.trans hconnected) nofun
      · exact ⟨⟨⟨hpart, hbooks.held, hbooks.own, rfl, hbooks.counted⟩, hattempts, hreconnects,
          hbefore⟩, hopened' _⟩
    · simp only [nextStep, hconnected, Option.some.injEq] at hs
      subst hs
      rcases hbooks with hsettled | hbooks
      · refine ⟨⟨?_, hattempts, hreconnects, hbefore⟩, hopened' _⟩
        show ClientLedger.RoundAt _ (afterCleaning s.client.worker).part
        rw [hended]
        exact ⟨hsettled.held, hsettled.own, rfl, hsettled.counted⟩
      · exact absurd hbooks.connected hconnected
  · cases hs
    obtain ⟨hpart, hbooks⟩ := hbooks
    refine ⟨⟨?_, ?_, hreconnects, hbefore⟩, hopened.phase (by rw [hphase]; decide) _⟩
    · show ClientLedger.RoundAt _ (afterCleaning s.client.worker).part
      rw [part_afterCleaning hpart]
      exact ⟨hbooks.held, hbooks.own, hbooks.connected, hbooks.counted⟩
    · exact hattempts

/-- `connect` has returned: the loop has a new connection, and no other. -/
theorem Sound.obtain (h : s.Sound) (hphase : s.phase = .following)
    (hworker : s.client.worker = .connecting) :
    Sound { s with
      loopConnection := some s.obtained
      obtained := s.obtained + 1
      openConnections := insert s.obtained s.openConnections
      phase := .setting } := by
  obtain ⟨⟨hbooks, hattempts, hreconnects, hbefore⟩, hopened⟩ := h
  rw [hphase] at hbooks hreconnects hbefore
  have hpart : s.client.worker.part = .connecting := congrArg BridgeWorker.part hworker
  rw [hpart] at hbooks
  obtain ⟨⟨hheld, hown, hconnected, hcounted⟩, hlt⟩ := hbooks
  refine ⟨⟨⟨hpart, hlt, _, hheld, rfl, hconnected, hcounted⟩, hattempts, hreconnects, hbefore⟩, ?_⟩
  intro id hid
  rcases Finset.mem_insert.mp hid with rfl | hid
  · exact .inr (.inl rfl)
  · rcases hopened id hid with hconnection | hloop | ⟨hclosing, -⟩
    · exact .inl hconnection
    · exact absurd (hown.symm.trans hloop) nofun
    · rw [hphase] at hclosing
      contradiction

/-- Before it is stored a connection is closed by its destructor. -/
theorem Sound.caught (h : s.Sound) (hphase : s.phase = .setting ∨ s.phase = .storing) :
    s.caught.Sound := by
  obtain ⟨⟨hbooks, hattempts, hreconnects, hbefore⟩, hopened⟩ := h
  have hclosing : s.release.phase ≠ .closing := by
    rw [phase_release]
    rcases hphase with hphase | hphase <;> rw [hphase] <;> decide
  refine ⟨?_, hopened.release.phase hclosing _⟩
  have hbooks : ∃ id, s.ledger.Books none (some id) false 0 := by
    rcases hphase with hphase | hphase <;> rw [hphase] at hbooks <;> exact hbooks.2.2
  obtain ⟨id, hheld, hown, hconnected, hcounted⟩ := hbooks
  have hknown : s.ledger.known s.phase = s.client.successfulConnections := by
    rcases hphase with hphase | hphase <;> rw [hphase] <;> rfl
  rw [hknown] at hreconnects hbefore
  have hledger : s.caught.ledger = { s.ledger with loopConnection := none } := by
    unfold ClientRun.caught ClientRun.release
    split <;> rfl
  rw [hledger]
  exact ⟨.inl ⟨hheld, rfl, hconnected, hcounted⟩, hattempts, hreconnects, hbefore⟩

/-- The connection is in place, and the worker goes on with it. -/
theorem Sound.enter {now : ℤ} {connection : ClientConnection} {phase : ConnectionPhase}
    (h : s.Sound) (hphase : s.phase = .entering) :
    Sound { s with
      client := { s.client with now := now }.setWorker (.connected connection phase)
      phase := .following } := by
  obtain ⟨⟨hbooks, hattempts, hreconnects, hbefore⟩, hopened⟩ := h
  rw [hphase] at hbooks hreconnects hbefore
  obtain ⟨-, id, hheld, hown, hconnected, hcounted⟩ := hbooks
  exact ⟨⟨⟨id, hheld, hown, hconnected, hcounted⟩, hattempts, hreconnects, hbefore⟩,
    hopened.phase (by rw [hphase]; decide) _⟩

/-- `client_->connection` is moved out, to be closed. -/
theorem Sound.moveOut {connection : Option ClientConnection} (h : s.Sound)
    (hphase : s.phase = .following) (hworker : s.client.worker = .cleaning connection) :
    Sound { s with
      connection := none
      connectionToClose := s.connection
      phase := .closing } := by
  obtain ⟨⟨hbooks, hattempts, hreconnects, hbefore⟩, hopened⟩ := h
  rw [hphase] at hbooks hreconnects hbefore
  have hpart : s.client.worker.part = .cleaning := congrArg BridgeWorker.part hworker
  rw [hpart] at hbooks
  have hmoved : s.ledger.Settled ∨ ∃ id, s.ledger.Books (some id) none true 1 := hbooks
  have hown : s.loopConnection = none := by
    rcases hmoved with hsettled | ⟨id, hbooks⟩
    · exact hsettled.own
    · exact hbooks.own
  refine ⟨⟨⟨hpart, ?_⟩, hattempts, hreconnects, hbefore⟩, ?_⟩
  · rcases hmoved with hsettled | ⟨id, hbooks⟩
    · exact .inl ⟨rfl, hown, hsettled.connected, hsettled.counted⟩
    · exact .inr ⟨rfl, hown, hbooks.connected, hbooks.counted⟩
  · intro id hid
    rcases hopened id hid with hconnection | hloop | ⟨hclosing, -⟩
    · exact .inr (.inr ⟨rfl, hconnection⟩)
    · exact absurd (hown.symm.trans hloop) nofun
    · rw [hphase] at hclosing
      contradiction

variable [DecidableEq Call]

theorem Sound.step {action : RunAction Call} (h : s.Sound) (hs : s.step action = some s') :
    s'.Sound := by
  cases action with
  | client action =>
    by_cases hworker : ∃ a, action = .worker a
    · obtain ⟨a, rfl⟩ := hworker
      exact h.workerStep hs
    · push Not at hworker
      obtain ⟨client, hclient, rfl⟩ := exists_client_of_beside hworker hs
      exact h.beside (BridgeClient.step_account hworker hclient)
  | obtain =>
    obtain ⟨hstart, hs⟩ := Option.ite_none_right_eq_some.mp hs
    rw [Bool.and_eq_true, decide_eq_true_iff, decide_eq_true_iff] at hstart
    cases hs
    exact h.obtain hstart.1 hstart.2
  | next =>
    obtain ⟨t, ht, rfl⟩ := Option.map_eq_some_iff.mp hs
    cases hphase : s.phase with
    | setting => exact h.start (.inl hphase) ht
    | storing => exact h.start (.inr (.inl hphase)) ht
    | flagging => exact h.start (.inr (.inr (.inl hphase))) ht
    | counting => exact h.start (.inr (.inr (.inr (.inl hphase)))) ht
    | countingReconnect => exact h.start (.inr (.inr (.inr (.inr hphase)))) ht
    | closing => exact h.finish (.inl hphase) ht
    | exchanging => exact h.finish (.inr (.inl hphase)) ht
    | countingDisconnect => exact h.finish (.inr (.inr hphase)) ht
    | following | entering | abandoned => rw [hphase] at ht; cases ht
  | fail =>
    obtain ⟨hstart, hs⟩ := Option.ite_none_right_eq_some.mp hs
    rw [Bool.or_eq_true, decide_eq_true_iff, decide_eq_true_iff] at hstart
    cases hs
    exact h.caught hstart
  | enter now =>
    simp only [ClientRun.step] at hs
    split at hs
    case h_1 options hphase hoptions =>
      obtain ⟨-, hs⟩ := Option.ite_none_right_eq_some.mp hs
      cases hs
      exact h.enter hphase
    case h_2 => cases hs
  | moveOut =>
    simp only [ClientRun.step] at hs
    split at hs
    case h_1 connection hphase hworker =>
      cases hs
      exact h.moveOut hphase hworker
    case h_2 => cases hs
  | lost connection =>
    cases hs
    exact ⟨h.accounted, h.opened.close⟩
  | stopCopy call =>
    cases hs
    exact ⟨h.accounted, h.opened⟩
  | stopClose call =>
    cases hs
    exact ⟨h.accounted, h.opened.close⟩

theorem sound_of_reachable {options : NetworkBridgeOptions} {defaultPublisherId : BitVec 64}
    (h : (clientRunSystem Call options defaultPublisherId).Reachable s) : s.Sound := by
  refine TransitionSystem.Reachable.invariant ?_ (fun s a s' _ hs hstep => hs.step hstep) h
  rintro s ⟨client, ⟨bridge, -, rfl⟩, rfl⟩
  exact ⟨⟨⟨⟨rfl, rfl, rfl, rfl⟩, rfl⟩, Nat.le_refl 0, rfl,
    iff_of_false nofun (Nat.lt_irrefl 0)⟩, nofun⟩

/-- Where a round is over: from the end of its accounting to the start of the next attempt. -/
def RoundOver (s : ClientRun Call) : Prop :=
  s.phase = .following ∧
    (s.client.worker.part = .ended ∨ s.client.worker = .checking ∨ s.client.worker = .left)

/-- Nothing is kept of the connection of a round, and its counts have been settled. -/
structure RoundSettled (s : ClientRun Call) : Prop where
  disconnected : s.client.isConnected = false
  connection : s.connection = none
  loopConnection : s.loopConnection = none
  closed : s.openConnections = ∅
  disconnects : s.client.disconnects = s.client.successfulConnections
  attempts : s.client.successfulConnections ≤ s.client.connectAttempts
  reconnects : s.client.reconnects =
    if 0 < s.client.successfulConnections then s.client.successfulConnections - 1 else 0

omit [DecidableEq Call] in
theorem Sound.settled (h : s.Sound) (hphase : s.phase = .following) (hs : s.ledger.Settled) :
    s.RoundSettled := by
  obtain ⟨⟨-, hattempts, hreconnects, -⟩, hopened⟩ := h
  rw [hphase] at hreconnects
  refine ⟨hs.connected, hs.held, hs.own, ?_, hs.counted.symm, hattempts, ?_⟩
  · apply Finset.eq_empty_of_forall_notMem
    intro id hid
    rcases hopened id hid with hconnection | hloop | ⟨hclosing, -⟩
    · exact absurd (hs.held.symm.trans hconnection) nofun
    · exact absurd (hs.own.symm.trans hloop) nofun
    · rw [hphase] at hclosing
      contradiction
  · have hcount : s.client.reconnects = s.client.successfulConnections - 1 := hreconnects
    split <;> omega

omit [DecidableEq Call] in
/-- An attempt is counted by the check of the loop alone. -/
theorem checking_of_clientStep {action : WorkerAction}
    (hs : s.clientStep (.worker action) = some s')
    (hattempts : s'.client.connectAttempts ≠ s.client.connectAttempts) :
    s.phase = .following ∧ s.client.worker = .checking := by
  obtain ⟨hstart, hs⟩ := Option.ite_none_right_eq_some.mp hs
  rw [Bool.and_eq_true, decide_eq_true_iff, Bool.not_eq_true'] at hstart
  obtain ⟨client, hclient, hs⟩ := Option.map_eq_some_iff.mp hs
  have hmoves : s.client.Moves client := BridgeClient.workerStep_moves hstart.2 hclient
  have hs' : s'.client = client := by
    subst hs
    dsimp only
    split <;> exact client_follow
  refine ⟨hstart.1, BridgeWorker.eq_checking_iff.mpr ?_⟩
  by_contra hother
  have hsame : client.account.connectAttempts = s.client.account.connectAttempts := by
    rw [hmoves.account]
    unfold ClientAccount.move
    split <;> first | rfl | contradiction
  exact hattempts (hs' ▸ hsame)

theorem checking_of_step {action : RunAction Call} (hs : s.step action = some s')
    (hattempts : s'.client.connectAttempts ≠ s.client.connectAttempts) :
    s.phase = .following ∧ s.client.worker = .checking := by
  cases action with
  | client action =>
    by_cases hworker : ∃ a, action = .worker a
    · obtain ⟨a, rfl⟩ := hworker
      exact checking_of_clientStep hs hattempts
    · push Not at hworker
      obtain ⟨client, hclient, rfl⟩ := exists_client_of_beside hworker hs
      have hsame := congrArg ClientAccount.connectAttempts
        (BridgeClient.step_account hworker hclient).account
      exact absurd hsame hattempts
  | obtain =>
    obtain ⟨-, hs⟩ := Option.ite_none_right_eq_some.mp hs
    cases hs
    exact absurd rfl hattempts
  | next =>
    obtain ⟨t, ht, rfl⟩ := Option.map_eq_some_iff.mp hs
    have hresume : t.resume.client.connectAttempts = t.client.connectAttempts := by
      unfold resume
      split <;> rfl
    rw [hresume] at hattempts
    cases hphase : s.phase <;> rw [hphase] at ht <;> cases ht <;> exact absurd rfl hattempts
  | fail =>
    obtain ⟨-, hs⟩ := Option.ite_none_right_eq_some.mp hs
    cases hs
    exact absurd rfl hattempts
  | enter now =>
    simp only [step] at hs
    split at hs
    · obtain ⟨-, hs⟩ := Option.ite_none_right_eq_some.mp hs
      cases hs
      exact absurd rfl hattempts
    · cases hs
  | moveOut =>
    simp only [step] at hs
    split at hs
    · cases hs
      exact absurd rfl hattempts
    · cases hs
  | lost | stopCopy | stopClose =>
    cases hs
    exact absurd rfl hattempts

/-- A round ends with its connection closed and forgotten and its counts settled, and no attempt
begins before; at every moment at most one connection is counted and not yet disconnected, and
at most one is open. -/
theorem client_accounting {options : NetworkBridgeOptions} {defaultPublisherId : BitVec 64}
    (h : (clientRunSystem Call options defaultPublisherId).Reachable s) :
    (s.RoundOver → s.RoundSettled) ∧
      (s.phase = .following → s.client.worker = .checking → s.connectionToClose = none) ∧
      (∀ action s', s.step action = some s' →
        s'.client.connectAttempts ≠ s.client.connectAttempts → s.RoundSettled) ∧
      s.client.disconnects ≤ s.client.successfulConnections ∧
      s.client.successfulConnections ≤ s.client.disconnects + 1 ∧
      s.openConnections.card ≤ 1 := by
  have hsound := sound_of_reachable h
  have hbooks := hsound.accounted.books
  have hchecking (hphase : s.phase = .following) (hworker : s.client.worker = .checking) :
      s.ledger.Settled ∧ s.connectionToClose = none := by
    rw [hphase, hworker] at hbooks
    exact hbooks
  refine ⟨?_, fun hphase hworker => (hchecking hphase hworker).2, ?_, ?_⟩
  · rintro ⟨hphase, hover⟩
    apply hsound.settled hphase
    rcases hover with hended | hworker | hworker
    · rw [hphase, hended] at hbooks
      exact hbooks
    · exact (hchecking hphase hworker).1
    · rw [hphase, hworker] at hbooks
      exact hbooks
  · intro action s' hs hattempts
    obtain ⟨hphase, hworker⟩ := checking_of_step hs hattempts
    exact hsound.settled hphase (hchecking hphase hworker).1
  · obtain ⟨held, own, connected, owed, howed, hb, hone, hclosing⟩ := hbooks.exists_books
    have hcounted : s.client.successfulConnections = s.client.disconnects + owed := hb.counted
    refine ⟨by omega, by omega, Finset.card_le_one.mpr ?_⟩
    -- all the references that may be to an open connection are to the same one
    have honly (id : ℕ) (hid : id ∈ s.openConnections) :
        held = some id ∨ own = some id ∨ s.phase = .closing ∧ s.connectionToClose = some id := by
      rw [← hb.held, ← hb.own]
      exact hsound.opened id hid
    intro first hfirst second hsecond
    by_cases hphase : s.phase = .closing
    · obtain ⟨rfl, rfl⟩ := hclosing hphase
      have hmoved (id : ℕ) (hid : id ∈ s.openConnections) : s.connectionToClose = some id := by
        rcases honly id hid with hheld | hown | ⟨-, hmoved⟩
        · contradiction
        · contradiction
        · exact hmoved
      exact Option.some.inj ((hmoved first hfirst).symm.trans (hmoved second hsecond))
    · have hkept (id : ℕ) (hid : id ∈ s.openConnections) : held = some id ∨ own = some id := by
        rcases honly id hid with hheld | hown | ⟨hmoved, -⟩
        · exact .inl hheld
        · exact .inr hown
        · exact absurd hmoved hphase
      grind

/-- A refused attempt, one that fails before its connection is stored, and two connections that
are lost, of which a call of `stop` keeps the first. -/
theorem client_accounting_reconnected :
    ∃ s : ClientRun Unit, s.client.connectAttempts = 4 ∧ s.client.disconnects = 2 ∧
      s.client.reconnects = 1 ∧ s.RoundSettled := by
  let wait : List (RunAction Unit) := [.client (.worker .next), .client (.worker .next)]
  let cleaning : List (RunAction Unit) := [.client (.worker .next), .moveOut, .next, .next]
  let refused : List (RunAction Unit) :=
    [.client (.worker .next), .client (.worker .fail)] ++ cleaning ++ wait
  let unset : List (RunAction Unit) :=
    [.client (.worker .next), .obtain, .fail] ++ cleaning ++ wait
  let lost : List (RunAction Unit) :=
    [.client (.worker .next), .obtain, .next, .next, .next, .next, .next, .enter 1,
      .client (.worker .next), .client (.worker .next), .stopCopy (), .client (.worker .fail)] ++
      cleaning ++ [.next, .stopClose ()] ++ wait
  obtain ⟨s, hs, hp⟩ := (clientRunSystem Unit {} 7).exists_reachable_of_run
    { client := { publisherId := 7, outbound := { capacity := 1024 } } }
    (.client (.startTcpClient {}) :: (refused ++ unset ++ lost ++ lost))
    (fun s => s.phase = .following && s.client.worker = .checking &&
      s.client.connectAttempts = 4 && s.client.disconnects = 2 && s.client.reconnects = 1)
    ⟨_, ⟨_, rfl, rfl⟩, rfl⟩ (by decide +kernel)
  simp only [Bool.and_eq_true, decide_eq_true_iff] at hp
  obtain ⟨⟨⟨⟨hphase, hworker⟩, hattempts⟩, hdisconnects⟩, hreconnects⟩ := hp
  exact ⟨s, hattempts, hdisconnects, hreconnects,
    (client_accounting hs).1 ⟨hphase, .inr (.inl hworker)⟩⟩

end ClientRun
end RobotMiddleware
