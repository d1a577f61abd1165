import RobotMiddleware.FrameClassification
import RobotMiddleware.CappedDoubling

/-! The waits that `client_loop` asks for between its connection rounds. -/
namespace RobotMiddleware

theorem Milliseconds.count_min (a b : Milliseconds) :
    (Milliseconds.min a b).count = Min.min a.count b.count := by
  unfold Milliseconds.min
  split <;> omega

theorem validateReconnectOptions_backoff {options : ReconnectOptions}
    (h : validateReconnectOptions options = .ok ()) :
    0 < options.initialBackoff.count ∧
      options.initialBackoff.count ≤ options.maximumBackoff.count := by
  unfold validateReconnectOptions throwIf at h
  split at h
  case isTrue => cases h
  case isFalse hvalid =>
    push Not at hvalid
    exact ⟨hvalid.2.2.2.2.2.1, hvalid.2.2.2.2.2.2⟩

/-- The guard near the end of the range never gives a value other than the minimum. -/
theorem doubledBackoff_eq (maximum : Milliseconds) {current : Milliseconds} (h : 0 < current.count) :
    ∃ doubled, doubledBackoff current maximum = some doubled ∧
      doubled.count = min maximum.count (current.count * 2) := by
  have hupper := maximum.upper
  unfold doubledBackoff
  split
  case isTrue hmaximum => exact ⟨maximum, rfl, by omega⟩
  case isFalse hmaximum =>
    simp only
    split
    case isTrue hguard => exact ⟨maximum, rfl, by omega⟩
    case isFalse hguard =>
      have hrange : -2 ^ 63 ≤ current.count * 2 ∧ current.count * 2 < 2 ^ 63 := by omega
      refine ⟨maximum.min ⟨current.count * 2, hrange.1, hrange.2⟩, ?_, ?_⟩
      · rw [Milliseconds.ofCount, dif_pos hrange]
        rfl
      · exact Milliseconds.count_min _ _

/-- A valid heartbeat, or a frame without flags. -/
def Frame.isHealthy (frame : Frame) : Bool :=
  isHeartbeatFrame frame || frame.flags = 0

theorem Frame.isHealthy_iff {frame : Frame} :
    frame.isHealthy = true ↔ classify frame ≠ .protocolError := by
  rw [ne_eq, classify_eq_protocolError_iff, Frame.isHealthy, Bool.or_eq_true, decide_eq_true_iff]
  cases isHeartbeatFrame frame <;> simp

def ClientConnection.isHealthy (connection : ClientConnection) : Bool :=
  connection.received.any Frame.isHealthy

def ClientRound.isHealthy (round : ClientRound) : Bool :=
  round.connection.any ClientConnection.isHealthy

namespace BridgeClient
variable {options : ReconnectOptions} {s s' : BridgeClient}

/-- The number of rounds since, and including, the last healthy one, or since the start. -/
def roundsSince (rounds : List ClientRound) : ℕ :=
  attemptsSince ClientRound.isHealthy rounds

theorem roundsSince_healthy {earlier later : List ClientRound} {round : ClientRound}
    (hround : round.isHealthy = true) (hlater : ∀ r ∈ later, r.isHealthy = false) :
    roundsSince (earlier ++ round :: later) = later.length + 1 :=
  attemptsSince_restart hround hlater

theorem roundsSince_start {rounds : List ClientRound}
    (h : ∀ r ∈ rounds, r.isHealthy = false) : roundsSince rounds = rounds.length :=
  attemptsSince_of_none h

/-- The back-off at the head of a round, `n` rounds after the last healthy one. -/
def backoffAfter (options : ReconnectOptions) (n : ℕ) : ℤ :=
  cappedDoubling options.initialBackoff.count options.maximumBackoff.count n

/-- Whether the loop has taken notice of the frames that came in. The frame that is being
looked at is the last one that came in. -/
def Noticed (connection : ClientConnection) : ConnectionPhase → Prop
  | .classifying incoming _ => ∃ earlier, connection.received = earlier ++ [incoming] ∧
      connection.healthyConnection = earlier.any Frame.isHealthy
  | .delivering _ _ | .noticing _ => connection.isHealthy = true
  | _ => connection.healthyConnection = connection.isHealthy

def Resets (options : ReconnectOptions) (s : BridgeClient) (healthy : Bool) : Prop :=
  s.backoff.count = if healthy then options.initialBackoff.count
    else backoffAfter options (roundsSince s.history.rounds)

/-- What `backoff` holds, by where the worker is. A loop that is about to end may hold anything. -/
def BackoffAt (options : ReconnectOptions) (s : BridgeClient) : BridgeWorker → Prop
  | .none | .manual _ | .undefined => False
  | .left => True
  | .checking => s.going = true → Resets options s false
  | .connecting => Resets options s false
  | .connected connection phase =>
    Resets options s connection.healthyConnection ∧ Noticed connection phase
  | .caught connection | .cleaning connection | .deciding connection =>
    Resets options s (connection.any ClientConnection.isHealthy)
  | .waiting => ∃ earlier round, s.history.rounds = earlier ++ [round] ∧
      s.backoff.count = backoffAfter options (roundsSince s.history.rounds - 1)

structure BackoffLaw (options : ReconnectOptions) (s : BridgeClient) : Prop where
  configured : s.options = some options
  positive : 0 < options.initialBackoff.count
  ordered : options.initialBackoff.count ≤ options.maximumBackoff.count
  waits : ∀ earlier round later, s.history.rounds = earlier ++ round :: later →
    round.wait.count = backoffAfter options (roundsSince (earlier ++ [round]) - 1)
  backoff : BackoffAt options s s.worker

structure Unconfigured (s : BridgeClient) : Prop where
  options : s.options = none
  rounds : s.history.rounds = []
  worker : s.worker = .none ∨ (∃ phase, s.worker = .manual phase) ∨ s.worker = .left

/-- A step that leaves the back-off and the rounds alone. -/
theorem BackoffLaw.move (h : BackoffLaw options s) (hoptions : s'.options = s.options)
    (hbackoff : s'.backoff = s.backoff) (hrounds : s'.history.rounds = s.history.rounds)
    (hgoing : s'.going = true → s.going = true) (hworker : BackoffAt options s s'.worker) :
    BackoffLaw options s' := by
  have hresets (healthy : Bool) : Resets options s' healthy ↔ Resets options s healthy := by
    unfold Resets
    rw [hbackoff, hrounds]
  refine ⟨hoptions.trans h.configured, h.positive, h.ordered, ?_, ?_⟩
  · rw [hrounds]
    exact h.waits
  · cases hat : s'.worker <;> rw [hat] at hworker
    case checking =>
      intro hstill
      exact (hresets false).mpr (hworker (hgoing hstill))
    case waiting =>
      unfold BackoffAt
      rw [hbackoff, hrounds]
      exact hworker
    case none | manual | undefined => exact hworker.elim
    case left => trivial
    case connected => exact ⟨(hresets _).mpr hworker.1, hworker.2⟩
    all_goals exact (hresets _).mpr hworker

/-- A frame that passed the tests: the back-off starts afresh, unless it has before. -/
theorem BackoffLaw.notice {connection : ClientConnection} {now : ℤ} (h : BackoffLaw options s)
    (hbackoff : Resets options s connection.healthyConnection)
    (hhealthy : connection.isHealthy = true) : BackoffLaw options (s.notice options connection now) where
  configured := h.configured
  positive := h.positive
  ordered := h.ordered
  waits := h.waits
  backoff := by
    refine ⟨?_, hhealthy.symm⟩
    show (if connection.healthyConnection then s.backoff else options.initialBackoff).count = _
    unfold Resets at hbackoff
    split
    case isTrue hnoticed =>
      rw [hnoticed] at hbackoff
      exact hbackoff
    case isFalse => rfl

theorem BackoffLaw.connectionStep {connection : ClientConnection} {phase : ConnectionPhase}
    {action : WorkerAction} (h : BackoffLaw options s)
    (hworker : s.worker = .connected connection phase)
    (hs : s.connectionStep options connection phase action = some s') : BackoffLaw options s' := by
  have hat : BackoffAt options s (.connected connection phase) := hworker ▸ h.backoff
  obtain ⟨hbackoff, hnoticed⟩ := hat
  have hlost (hsame : connection.healthyConnection = connection.isHealthy) :
      Resets options s ((some connection).any ClientConnection.isHealthy) := by
    rw [hsame] at hbackoff
    exact hbackoff
  cases phase with
  | checking =>
    cases action with
    | next =>
      cases hs
      refine h.move rfl rfl rfl id ⟨hbackoff, ?_⟩
      split <;> exact hnoticed
    | _ => cases hs
  | batching sent =>
    cases action with
    | next =>
      simp only [BridgeClient.connectionStep] at hs
      split at hs
      · split at hs
        · cases hs
          exact h.move rfl rfl rfl id ⟨hbackoff, hnoticed⟩
        · cases hs
          exact h.move rfl rfl rfl id ⟨hbackoff, hnoticed⟩
      · cases hs
        exact h.move rfl rfl rfl id ⟨hbackoff, hnoticed⟩
    | fail =>
      cases hs
      exact h.move rfl rfl rfl id (hlost hnoticed)
    | _ => cases hs
  | popped sent frame =>
    cases action with
    | next =>
      cases hs
      exact h.move rfl rfl rfl id ⟨hbackoff, hnoticed⟩
    | _ => cases hs
  | sending sent frame =>
    cases action with
    | next =>
      cases hs
      exact h.move rfl rfl rfl id ⟨hbackoff, hnoticed⟩
    | fail =>
      cases hs
      exact h.move rfl rfl rfl id (hlost hnoticed)
    | _ => cases hs
  | receiving =>
    cases action with
    | receive incoming now =>
      obtain ⟨hclock, hs⟩ := Option.ite_none_right_eq_some.mp hs
      cases incoming with
      | some incoming =>
        cases hs
        -- the frame is the last one that came in, and the loop has not looked at it
        exact h.move rfl rfl rfl id ⟨hbackoff, connection.received, rfl, hnoticed⟩
      | none =>
        cases hs
        exact h.move rfl rfl rfl id ⟨hbackoff, hnoticed⟩
    | fail =>
      cases hs
      exact h.move rfl rfl rfl id (hlost hnoticed)
    | _ => cases hs
  | classifying incoming now =>
    cases action with
    | next =>
      obtain ⟨earlier, hreceived, hearlier⟩ := hnoticed
      have hhealthy : connection.isHealthy = (earlier.any Frame.isHealthy || incoming.isHealthy) := by
        rw [ClientConnection.isHealthy, hreceived, List.any_append, List.any_cons,
          List.any_nil, Bool.or_false]
      have hvalid (hclass : classify incoming ≠ .protocolError) : connection.isHealthy = true := by
        rw [hhealthy, Frame.isHealthy_iff.mpr hclass, Bool.or_true]
      simp only [BridgeClient.connectionStep] at hs
      split at hs
      case h_1 hclient =>
        cases hs
        have hclass := clientFrame_eq_heartbeat_iff.mp hclient
        exact h.move rfl rfl rfl id ⟨hbackoff, hvalid (by rw [hclass]; decide)⟩
      case h_2 hclient =>
        cases hs
        have hclass := clientFrame_eq_deliver_iff.mp hclient
        exact h.move rfl rfl rfl id ⟨hbackoff, hvalid (by rw [hclass]; decide)⟩
      case h_3 fault hclient =>
        cases hs
        -- a frame that fails the tests does not make the connection healthy
        have hclass := clientFrame_eq_error_iff.mp ⟨fault, hclient⟩
        have hinvalid : incoming.isHealthy = false := by
          rw [← Bool.not_eq_true, Frame.isHealthy_iff, hclass]
          decide
        exact h.move rfl rfl rfl id (hlost (by rw [hhealthy, hinvalid, Bool.or_false, hearlier]))
    | _ => cases hs
  | delivering incoming now =>
    cases action with
    | next =>
      cases hs
      exact h.move rfl rfl rfl id ⟨hbackoff, hnoticed⟩
    | _ => cases hs
  | noticing now =>
    cases action with
    | next =>
      cases hs
      exact h.notice hbackoff hnoticed
    | _ => cases hs
  | heartbeat now =>
    cases action with
    | next =>
      obtain ⟨-, hs⟩ := Option.ite_none_left_eq_some.mp hs
      cases hs
      exact h.move rfl rfl rfl id ⟨hbackoff, hnoticed⟩
    | beat sendTimeNs =>
      obtain ⟨-, hs⟩ := Option.ite_none_right_eq_some.mp hs
      cases hs
      exact h.move rfl rfl rfl id ⟨hbackoff, hnoticed⟩
    | fail =>
      cases hs
      exact h.move rfl rfl rfl id (hlost hnoticed)
    | _ => cases hs
  | sendingHeartbeat now =>
    cases action with
    | next =>
      cases hs
      exact h.move rfl rfl rfl id ⟨hbackoff, hnoticed⟩
    | fail =>
      cases hs
      exact h.move rfl rfl rfl id (hlost hnoticed)
    | _ => cases hs
  | idle now =>
    cases action with
    | next =>
      cases hs
      refine h.move rfl rfl rfl id ?_
      show BackoffAt options s (if _ then _ else _)
      split
      · exact hlost hnoticed
      · exact ⟨hbackoff, hnoticed⟩
    | _ => cases hs
  | closing =>
    cases action with
    | next =>
      cases hs
      exact h.move rfl rfl rfl id (hlost hnoticed)
    | _ => cases hs

/-- The round is over, and the wait that it asks for is the back-off. -/
theorem BackoffLaw.decide {connection : Option ClientConnection} (h : BackoffLaw options s)
    (hbackoff : Resets options s (connection.any ClientConnection.isHealthy))
    (hrounds : s'.history.rounds = s.history.rounds ++ [⟨connection, s.backoff⟩])
    (hoptions : s'.options = s.options) (hkept : s'.backoff = s.backoff)
    (hworker : s'.worker = .waiting) : BackoffLaw options s' := by
  have hnow : s.backoff.count = backoffAfter options (roundsSince s'.history.rounds - 1) := by
    have hsince : roundsSince s'.history.rounds =
        if connection.any ClientConnection.isHealthy then 1
        else roundsSince s.history.rounds + 1 := by
      rw [hrounds]
      exact attemptsSince_concat
    rw [hbackoff, hsince]
    split
    · exact (cappedDoubling_zero h.ordered).symm
    · rfl
  refine ⟨hoptions.trans h.configured, h.positive, h.ordered, ?_, ?_⟩
  · intro earlier round later hsplit
    rcases List.eq_nil_or_concat later with rfl | ⟨later, last, rfl⟩
    · obtain ⟨rfl, hlast⟩ := List.append_inj' (hsplit.symm.trans hrounds) rfl
      obtain rfl := List.singleton_inj.mp hlast
      rw [← hrounds]
      exact hnow
    · rw [List.concat_eq_append, ← List.cons_append, ← List.append_assoc, hrounds] at hsplit
      exact h.waits earlier round later (List.append_inj' hsplit rfl).1
  · rw [hworker]
    exact ⟨s.history.rounds, _, hrounds, hkept ▸ hnow⟩

/-- After the wait the back-off doubles, which cannot overflow. -/
theorem BackoffLaw.double (h : BackoffLaw options s) (hworker : s.worker = .waiting) :
    ∃ backoff, doubledBackoff s.backoff options.maximumBackoff = some backoff ∧
      BackoffLaw options ({ s with backoff := backoff }.setWorker .checking) := by
  have hat : BackoffAt options s .waiting := hworker ▸ h.backoff
  obtain ⟨earlier, round, hrounds, hbackoff⟩ := hat
  have hpositive : 0 < s.backoff.count := hbackoff ▸ cappedDoubling_pos h.positive h.ordered
  obtain ⟨backoff, hdoubled, hcount⟩ := doubledBackoff_eq options.maximumBackoff hpositive
  have hsince : 0 < roundsSince s.history.rounds := hrounds ▸ attemptsSince_concat_pos
  refine ⟨backoff, hdoubled, h.configured, h.positive, h.ordered, h.waits, fun _ => ?_⟩
  show backoff.count = backoffAfter options (roundsSince s.history.rounds)
  rw [hcount, hbackoff, backoffAfter, backoffAfter, ← cappedDoubling_succ h.positive h.ordered,
    Nat.sub_add_cancel hsince]

theorem BackoffLaw.workerStep {action : WorkerAction} (h : BackoffLaw options s) (hs : s.workerStep s.worker action = some s') :
    BackoffLaw options s' := by
  have hoptions := h.configured
  have hat := h.backoff
  cases hworker : s.worker with
  | none =>
    rw [hworker] at hat
    exact hat.elim
  | manual phase =>
    rw [hworker] at hat
    exact hat.elim
  | undefined =>
    rw [hworker] at hat
    exact hat.elim
  | checking =>
    rw [hworker] at hs hat
    cases action with
    | next =>
      simp only [BridgeClient.workerStep] at hs
      split at hs
      case isTrue hgoing =>
        cases hs
        exact h.move rfl rfl rfl id (hat hgoing)
      case isFalse =>
        cases hs
        exact h.move rfl rfl rfl id trivial
    | _ => cases hs
  | connecting =>
    rw [hworker] at hs hat
    cases action with
    | connect now =>
      simp only [BridgeClient.workerStep, hoptions] at hs
      obtain ⟨hclock, hs⟩ := Option.ite_none_right_eq_some.mp hs
      cases hs
      exact h.move hoptions.symm rfl rfl id ⟨hat, rfl⟩
    | fail =>
      cases hs
      exact h.move rfl rfl rfl id hat
    | _ => cases hs
  | connected connection phase =>
    rw [hworker] at hs
    simp only [BridgeClient.workerStep, hoptions, Option.bind_some] at hs
    exact h.connectionStep hworker hs
  | caught connection =>
    rw [hworker] at hs hat
    cases action with
    | next =>
      cases hs
      exact h.move rfl rfl rfl id hat
    | _ => cases hs
  | cleaning connection =>
    rw [hworker] at hs hat
    cases action with
    | next =>
      cases hs
      exact h.move rfl rfl rfl id hat
    | fail =>
      cases hs
      exact h.move rfl rfl rfl id trivial
    | _ => cases hs
  | deciding connection =>
    rw [hworker] at hs hat
    cases action with
    | next =>
      simp only [BridgeClient.workerStep] at hs
      split at hs
      case isTrue =>
        cases hs
        exact h.decide hat rfl rfl rfl rfl
      case isFalse hstopping =>
        cases hs
        exact h.move rfl rfl rfl id fun hgoing => absurd hgoing hstopping
    | _ => cases hs
  | waiting =>
    rw [hworker] at hs
    cases action with
    | next =>
      obtain ⟨backoff, hdoubled, hlaw⟩ := h.double hworker
      have hnext : some ({ s with backoff := backoff }.setWorker .checking) = some s' := by
        rw [← hs, BridgeClient.workerStep, hoptions, Option.bind_some, hdoubled]
      exact Option.some.inj hnext ▸ hlaw
    | _ => cases hs
  | left =>
    rw [hworker] at hs
    cases action <;> cases hs

theorem Unconfigured.manualStep {phase : ManualPhase} {action : WorkerAction}
    (h : Unconfigured s) (hs : s.manualStep phase action = some s') : Unconfigured s' := by
  cases phase <;> cases action
  case checking.next =>
    cases hs
    refine ⟨h.options, h.rounds, ?_⟩
    cases hgoing : s.going with
    | true => exact .inr (.inl ⟨.popping, by simp [setWorker]⟩)
    | false => exact .inr (.inr (by simp [setWorker]))
  case popping.next =>
    simp only [BridgeClient.manualStep] at hs
    split at hs <;> cases hs <;> exact ⟨h.options, h.rounds, .inr (.inl ⟨_, rfl⟩)⟩
  case popping.fail =>
    cases hs
    exact ⟨h.options, h.rounds, .inr (.inr rfl)⟩
  case popped.next | sending.next | sending.fail =>
    cases hs
    exact ⟨h.options, h.rounds, .inr (.inl ⟨_, rfl⟩)⟩
  all_goals cases hs

/-- The steps that are not the worker's: they change nothing that the law reads, and may only
end its loop. -/
structure Beside (s s' : BridgeClient) : Prop where
  options : s'.options = s.options
  worker : s'.worker = s.worker
  backoff : s'.backoff = s.backoff
  rounds : s'.history.rounds = s.history.rounds
  going : s'.going = true → s.going = true

theorem step_beside {a : ClientAction} (hs : s.step a = some s') :
    (∃ action, a = .worker action) ∨ a = .setFrameSender ∨
      (∃ options, a = .startTcpClient options) ∨ Beside s s' := by
  cases a with
  | worker action => exact .inl ⟨action, rfl⟩
  | setFrameSender => exact .inr (.inl rfl)
  | startTcpClient options => exact .inr (.inr (.inl ⟨options, rfl⟩))
  | emitFrame frame =>
    cases hs
    exact .inr (.inr (.inr ⟨rfl, rfl, rfl, rfl, id⟩))
  | emitCheck call =>
    simp only [step] at hs
    split at hs <;> cases hs
    exact .inr (.inr (.inr ⟨rfl, rfl, rfl, rfl, id⟩))
  | emitPush call =>
    simp only [step] at hs
    split at hs
    · split at hs <;> cases hs <;> exact .inr (.inr (.inr ⟨rfl, rfl, rfl, rfl, id⟩))
    · cases hs
  | emitThrow call =>
    simp only [step] at hs
    split at hs <;> cases hs
    exact .inr (.inr (.inr ⟨rfl, rfl, rfl, rfl, id⟩))
  | emitCount call =>
    simp only [step] at hs
    split at hs <;> cases hs <;> exact .inr (.inr (.inr ⟨rfl, rfl, rfl, rfl, id⟩))
  | stop =>
    cases hs
    exact .inr (.inr (.inr ⟨rfl, rfl, rfl, rfl, by simp [BridgeClient.going]⟩))
  | stopRunning =>
    obtain ⟨-, hs⟩ := Option.ite_none_right_eq_some.mp hs
    cases hs
    exact .inr (.inr (.inr ⟨rfl, rfl, rfl, rfl, by simp [BridgeClient.going]⟩))
  | close =>
    obtain ⟨-, hs⟩ := Option.ite_none_right_eq_some.mp hs
    cases hs
    exact .inr (.inr (.inr ⟨rfl, rfl, rfl, rfl, id⟩))

theorem Unconfigured.startTcpClient (h : Unconfigured s)
    (hs : s.step (.startTcpClient options) = some s') : Unconfigured s' ∨ BackoffLaw options s' := by
  simp only [step] at hs
  split at hs
  case h_1 hvalid =>
    obtain ⟨hpositive, hordered⟩ := validateReconnectOptions_backoff hvalid
    obtain ⟨-, hs⟩ := Option.ite_none_right_eq_some.mp hs
    cases hs
    refine .inr ⟨rfl, hpositive, hordered, ?_, fun _ => ?_⟩
    · intro earlier round later hsplit
      have hnone : [] = earlier ++ round :: later := h.rounds.symm.trans hsplit
      simp at hnone
    · show options.initialBackoff.count = backoffAfter options (roundsSince s.history.rounds)
      rw [h.rounds]
      exact (cappedDoubling_zero hordered).symm
  case h_2 =>
    cases hs
    exact .inl h

theorem backoffLaw_of_reachable {bridgeOptions : NetworkBridgeOptions}
    {defaultPublisherId : BitVec 64}
    (h : (clientSystem bridgeOptions defaultPublisherId).Reachable s) :
    Unconfigured s ∨ ∃ options, BackoffLaw options s := by
  refine TransitionSystem.Reachable.invariant
    (P := fun s => Unconfigured s ∨ ∃ options, BackoffLaw options s) ?_ ?_ h
  · rintro s ⟨bridge, -, rfl⟩
    exact .inl ⟨rfl, rfl, .inl rfl⟩
  · intro s a s' _ ih hs
    rcases step_beside hs with ⟨action, rfl⟩ | rfl | ⟨options, rfl⟩ | hbeside
    · have hs : s.workerStep s.worker action = some s' := hs
      rcases ih with ih | ⟨options, ih⟩
      · obtain hworker | ⟨phase, hworker⟩ | hworker := ih.worker
        · rw [hworker] at hs
          cases action <;> cases hs
        · rw [hworker] at hs
          exact .inl (ih.manualStep hs)
        · rw [hworker] at hs
          cases action <;> cases hs
      · exact .inr ⟨options, ih.workerStep hs⟩
    · -- a client is never started a second time
      obtain ⟨hfree, hs⟩ := Option.ite_none_right_eq_some.mp hs
      simp only [Bool.and_eq_true, decide_eq_true_eq] at hfree
      cases hs
      rcases ih with ih | ⟨options, ih⟩
      · exact .inl ⟨ih.options, ih.rounds, .inr (.inl ⟨_, rfl⟩)⟩
      · have hat := ih.backoff
        rw [hfree.2] at hat
        exact hat.elim
    · rcases ih with ih | ⟨options', ih⟩
      · exact (ih.startTcpClient hs).imp_right fun hlaw => ⟨options, hlaw⟩
      · have hat := ih.backoff
        simp only [clientSystem, BridgeClient.step] at hs
        split at hs
        · obtain ⟨hfree, hs⟩ := Option.ite_none_right_eq_some.mp hs
          simp only [Bool.and_eq_true, decide_eq_true_eq] at hfree
          rw [hfree.2] at hat
          exact hat.elim
        · cases hs
          exact .inr ⟨options', ih⟩
    · rcases ih with ih | ⟨options, ih⟩
      · exact .inl ⟨hbeside.options.trans ih.options, hbeside.rounds.trans ih.rounds,
          hbeside.worker ▸ ih.worker⟩
      · exact .inr ⟨options, ih.move hbeside.options hbeside.backoff hbeside.rounds hbeside.going
          (hbeside.worker ▸ ih.backoff)⟩

/-- The wait after each round of `client_loop` is the initial back-off, doubled once for every
earlier round since the last healthy one and capped, computed without bounds; the doubling never
overflows; and from a healthy round up to the next the waits do not decrease. -/
theorem wait_eq_cappedDoubling {bridgeOptions : NetworkBridgeOptions}
    {defaultPublisherId : BitVec 64}
    (h : (clientSystem bridgeOptions defaultPublisherId).Reachable s)
    (hoptions : s.options = some options) :
    (∀ earlier round later, s.history.rounds = earlier ++ round :: later →
      round.wait.count = min options.maximumBackoff.count
        (options.initialBackoff.count * 2 ^ (roundsSince (earlier ++ [round]) - 1))) ∧
      s.worker ≠ .undefined ∧
      ∀ earlier round between round' later,
        s.history.rounds = earlier ++ round :: (between ++ round' :: later) →
          (∀ r ∈ between ++ [round'], r.isHealthy = false) →
            round.wait.count ≤ round'.wait.count := by
  rcases backoffLaw_of_reachable h with hlaw | ⟨options', hlaw⟩
  · rw [hlaw.options] at hoptions
    cases hoptions
  · obtain rfl : options' = options := Option.some.inj (hlaw.configured.symm.trans hoptions)
    refine ⟨hlaw.waits, ?_, ?_⟩
    · intro hworker
      have hat := hlaw.backoff
      rw [hworker] at hat
      exact hat
    · intro earlier round between round' later hsplit hquiet
      have hfirst := hlaw.waits earlier round _ hsplit
      have hrounds : s.history.rounds =
          ((earlier ++ [round]) ++ between) ++ round' :: later := by
        rw [hsplit, List.append_assoc, List.append_assoc, List.singleton_append]
      have hsecond := hlaw.waits _ round' later hrounds
      have hsince : roundsSince (((earlier ++ [round]) ++ between) ++ [round']) =
          roundsSince (earlier ++ [round]) + (between ++ [round']).length := by
        rw [List.append_assoc]
        exact attemptsSince_append hquiet
      rw [hfirst, hsecond, hsince]
      exact cappedDoubling_mono hlaw.positive (by omega)

/-- Two rounds without a connection, one that is lost after a heartbeat came in, and one more
without a connection. -/
theorem wait_eq_cappedDoubling_healthy :
    ∃ s : BridgeClient, s.history.rounds.map (·.wait.count) = [50, 100, 50, 100] ∧
      ∀ earlier round later, s.history.rounds = earlier ++ round :: later →
        round.wait.count = min 1000 (50 * 2 ^ (roundsSince (earlier ++ [round]) - 1)) := by
  let refused : List ClientAction := [.worker .next, .worker .fail, .worker .next, .worker .next,
    .worker .next, .worker .next]
  let healthy : List ClientAction := [.worker .next, .worker (.connect 1), .worker .next,
    .worker .next, .worker (.receive (some (makeHeartbeatFrame 7 0 0)) 2), .worker .next,
    .worker .next, .worker .next, .worker .next, .worker .next, .worker .next, .worker .fail,
    .worker .next, .worker .next, .worker .next, .worker .next]
  obtain ⟨s, hs, hp⟩ := (clientSystem {} 7).exists_reachable_of_run
    { publisherId := 7, outbound := { capacity := 1024 } }
    (.startTcpClient {} :: (refused ++ refused ++ healthy ++ refused))
    (fun s => s.options == some {} &&
      s.history.rounds.map (·.wait.count) == [50, 100, 50, 100])
    ⟨_, rfl, rfl⟩ (by decide +kernel)
  simp only [Bool.and_eq_true, beq_iff_eq] at hp
  exact ⟨s, hp.2, (wait_eq_cappedDoubling hs hp.1).1⟩

end BridgeClient
end RobotMiddleware
