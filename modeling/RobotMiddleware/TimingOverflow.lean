import RobotMiddleware.BridgeClientModel
import RobotMiddleware.FrameLayout

/-! The time arithmetic of `client_loop`, `session_loop` and `receive_frame`. `std::chrono`
counts in signed integers of 64 bits and compares and adds in nanoseconds; the options are
milliseconds, most of them without an upper bound. -/
namespace RobotMiddleware

/-- The result of a computation on signed 64-bit counts; `none` is an overflow, which C++
leaves undefined. -/
def checkedCount (n : ℤ) : Option ℤ :=
  if -2 ^ 63 ≤ n ∧ n < 2 ^ 63 then some n else none

/-- What is left of it on a machine that wraps around. -/
def wrappedCount (n : ℤ) : ℤ :=
  n.bmod (2 ^ 64)

theorem checkedCount_isSome {n : ℤ} :
    (checkedCount n).isSome = true ↔ -2 ^ 63 ≤ n ∧ n < 2 ^ 63 := by
  unfold checkedCount
  split
  case isTrue h => exact iff_of_true rfl h
  case isFalse h => exact iff_of_false (by simp) h

theorem checkedCount_of_range {n : ℤ} (hlower : -2 ^ 63 ≤ n) (hupper : n < 2 ^ 63) :
    checkedCount n = some n :=
  if_pos ⟨hlower, hupper⟩

theorem wrappedCount_of_range {n : ℤ} (hlower : -2 ^ 63 ≤ n) (hupper : n < 2 ^ 63) :
    wrappedCount n = n := by
  apply Int.bmod_eq_of_le
  · norm_num at hlower ⊢
    omega
  · norm_num at hupper ⊢
    omega

def Milliseconds.toNanoseconds (m : Milliseconds) : Option ℤ :=
  checkedCount m.nanoseconds

theorem Milliseconds.zero_lt : 0 < 2 ^ 63 := by decide

/-- `Clock::now() + timeout` in `receive_frame`. -/
def receiveDeadline (now : ℤ) (timeout : Milliseconds) : Option ℤ := do
  let timeout := if timeout.count < 0 then .ofNat 0 Milliseconds.zero_lt else timeout
  let duration ← timeout.toNanoseconds
  checkedCount (now + duration)

def pollTimeoutMs (deadline now : ℤ) : Option ℤ := do
  if deadline ≤ now then return 0
  let remaining ← checkedCount (deadline - now)
  let milliseconds := remaining / 1000000
  let value ← if milliseconds * 1000000 < remaining then checkedCount (milliseconds + 1)
    else some milliseconds
  return min value (2 ^ 31 - 1)

/-- `last_receive + heartbeat_interval`, and `now + heartbeat_interval`. -/
def nextHeartbeat (time : ℤ) (heartbeatInterval : Milliseconds) : Option ℤ := do
  let duration ← heartbeatInterval.toNanoseconds
  checkedCount (time + duration)

/-- `now - last_receive >= idle_timeout`. -/
def idleExpired (now lastReceive : ℤ) (idleTimeout : Milliseconds) : Option Bool := do
  let elapsed ← checkedCount (now - lastReceive)
  let limit ← idleTimeout.toNanoseconds
  return decide (limit ≤ elapsed)

/-- The same comparison where counts wrap around. -/
def idleExpiredWrapped (now lastReceive : ℤ) (idleTimeout : Milliseconds) : Bool :=
  wrappedCount idleTimeout.nanoseconds ≤ wrappedCount (now - lastReceive)

/-- `TcpSessionManagerOptions`, without those of the server. -/
structure TcpSessionManagerOptions where
  acceptPollInterval : Milliseconds := .ofNat 50
  receivePollInterval : Milliseconds := .ofNat 50
  sendTimeout : Milliseconds := .ofNat 250
  heartbeatInterval : Milliseconds := .ofNat 500
  idleTimeout : Milliseconds := .ofNat 2000
  maxClients : ℕ := 64
  deriving DecidableEq

def validateOptions (options : TcpSessionManagerOptions) : Except Fault Unit :=
  throwIf (options.acceptPollInterval.count ≤ 0 ∨ options.receivePollInterval.count ≤ 0 ∨
      options.sendTimeout.count ≤ 0 ∨ options.heartbeatInterval.count ≤ 0 ∨
      options.idleTimeout.count ≤ options.heartbeatInterval.count ∨
      100 < options.acceptPollInterval.count ∨ 100 < options.receivePollInterval.count ∨
      options.maxClients = 0)
    ("session intervals must be positive, poll intervals must not exceed " ++
      "100 ms, idle_timeout must exceed heartbeat_interval, and " ++
      "max_clients must be positive")

/-- The defaults pass their own checks. -/
example : validateReconnectOptions {} = .ok () ∧ validateOptions {} = .ok () := by decide

/-! Which options are safe. -/

def hundredYears : ℤ := 36525 * 86400 * 1000000000

/-- A reading of the steady clock in its first hundred years. -/
structure ClockReading where
  nanoseconds : ℤ
  lower : 0 ≤ nanoseconds
  upper : nanoseconds ≤ hundredYears

/-- No computation of a loop or of `receive_frame` overflows, whatever the clock reads, and a
smaller idle timeout runs out whenever this one does. The deadline of `TcpClient::connect` and the
wait of `wait_backoff` are not among them. -/
structure TimingSafe (pollInterval heartbeatInterval idleTimeout : Milliseconds) : Prop where
  deadline : ∀ now later : ClockReading, ∃ deadline,
    receiveDeadline now.nanoseconds pollInterval = some deadline ∧
    (pollTimeoutMs deadline later.nanoseconds).isSome = true
  heartbeat : ∀ time : ClockReading,
    (nextHeartbeat time.nanoseconds heartbeatInterval).isSome = true
  idle : ∀ now lastReceive : ClockReading,
    (idleExpired now.nanoseconds lastReceive.nanoseconds idleTimeout).isSome = true
  idle_mono : ∀ smaller : Milliseconds, 0 < smaller.count → smaller.count ≤ idleTimeout.count →
    ∀ now lastReceive : ClockReading,
      idleExpiredWrapped now.nanoseconds lastReceive.nanoseconds idleTimeout = true →
      idleExpiredWrapped now.nanoseconds lastReceive.nanoseconds smaller = true

/-- The sums stay in range until the end of the hundred years, and the timeout itself is a
count of nanoseconds. -/
def Representable (pollInterval heartbeatInterval idleTimeout : Milliseconds) : Prop :=
  hundredYears + pollInterval.count * 1000000 < 2 ^ 63 ∧
  hundredYears + heartbeatInterval.count * 1000000 < 2 ^ 63 ∧
  idleTimeout.count * 1000000 < 2 ^ 63

section Timing
variable {m : Milliseconds}

theorem hundredYears_lt : hundredYears < 2 ^ 62 := by
  norm_num [hundredYears]

theorem toNanoseconds_of_lt (hpos : 0 < m.count) (hlt : m.count * 1000000 < 2 ^ 63) :
    m.toNanoseconds = some (m.count * 1000000) :=
  checkedCount_of_range (by rw [Milliseconds.nanoseconds]; omega) hlt

/-- Where nothing overflows the sum is the one of integers. -/
theorem nextHeartbeat_eq (hpos : 0 < m.count) (h : hundredYears + m.count * 1000000 < 2 ^ 63)
    (time : ClockReading) :
    nextHeartbeat time.nanoseconds m = some (time.nanoseconds + m.nanoseconds) := by
  have hyears := hundredYears_lt
  have hlower := time.lower
  have hupper := time.upper
  have hlt : m.count * 1000000 < 2 ^ 63 := by omega
  rw [nextHeartbeat, toNanoseconds_of_lt hpos hlt]
  exact checkedCount_of_range (by omega) (by omega)

/-- A sum with a duration, from any reading of the clock. -/
theorem nextHeartbeat_isSome_iff (hpos : 0 < m.count) :
    (∀ time : ClockReading, (nextHeartbeat time.nanoseconds m).isSome = true) ↔
      hundredYears + m.count * 1000000 < 2 ^ 63 := by
  have hyears := hundredYears_lt
  constructor
  · intro h
    -- the latest reading decides
    have hlast := h ⟨hundredYears, by norm_num [hundredYears], le_rfl⟩
    by_cases hlt : m.count * 1000000 < 2 ^ 63
    · rw [nextHeartbeat, toNanoseconds_of_lt hpos hlt] at hlast
      exact (checkedCount_isSome.mp hlast).2
    · have hnone : m.toNanoseconds = none := if_neg fun hrange => hlt hrange.2
      rw [nextHeartbeat, hnone] at hlast
      cases hlast
  · intro h time
    rw [nextHeartbeat_eq hpos h]
    rfl

theorem receiveDeadline_eq (hpos : 0 < m.count) (now : ℤ) :
    receiveDeadline now m = nextHeartbeat now m := by
  have hnonneg : ¬ m.count < 0 := by omega
  rw [receiveDeadline, if_neg hnonneg, nextHeartbeat]

/-- What is left of a deadline is a count again. -/
theorem pollTimeoutMs_isSome {deadline now : ℤ} (hnow : 0 ≤ now) (hdeadline : deadline < 2 ^ 63) :
    (pollTimeoutMs deadline now).isSome = true := by
  unfold pollTimeoutMs
  by_cases hpast : deadline ≤ now
  · rw [if_pos hpast]
    rfl
  · have hremaining : checkedCount (deadline - now) = some (deadline - now) :=
      checkedCount_of_range (by omega) (by omega)
    have hround : checkedCount ((deadline - now) / 1000000 + 1) =
        some ((deadline - now) / 1000000 + 1) := checkedCount_of_range (by omega) (by omega)
    rw [if_neg hpast, hremaining]
    simp only [Option.bind_eq_bind, Option.bind_some, hround]
    split <;> rfl

theorem receiveDeadline_isSome_iff (hpos : 0 < m.count) :
    (∀ now later : ClockReading, ∃ deadline, receiveDeadline now.nanoseconds m = some deadline ∧
      (pollTimeoutMs deadline later.nanoseconds).isSome = true) ↔
      hundredYears + m.count * 1000000 < 2 ^ 63 := by
  rw [← nextHeartbeat_isSome_iff hpos]
  constructor
  · intro h time
    obtain ⟨deadline, hdeadline, -⟩ := h time time
    rw [← receiveDeadline_eq hpos, hdeadline]
    rfl
  · intro h now later
    obtain ⟨deadline, hdeadline⟩ := Option.isSome_iff_exists.mp (h now)
    refine ⟨deadline, (receiveDeadline_eq hpos _).trans hdeadline, ?_⟩
    have hlt : deadline < 2 ^ 63 := by
      obtain ⟨duration, -, hsum⟩ := Option.bind_eq_some_iff.mp hdeadline
      have hrange := checkedCount_isSome.mp (Option.isSome_of_mem hsum)
      unfold checkedCount at hsum
      rw [if_pos hrange] at hsum
      exact Option.some.inj hsum ▸ hrange.2
    exact pollTimeoutMs_isSome later.lower hlt

theorem elapsed_range (now lastReceive : ClockReading) :
    -2 ^ 63 ≤ now.nanoseconds - lastReceive.nanoseconds ∧
      now.nanoseconds - lastReceive.nanoseconds < 2 ^ 63 := by
  have hyears := hundredYears_lt
  have hnow := now.upper
  have hlast := lastReceive.upper
  have hnow' := now.lower
  have hlast' := lastReceive.lower
  omega

theorem idleExpired_eq (hpos : 0 < m.count) (h : m.count * 1000000 < 2 ^ 63)
    (now lastReceive : ClockReading) :
    idleExpired now.nanoseconds lastReceive.nanoseconds m =
      some (decide (m.nanoseconds ≤ now.nanoseconds - lastReceive.nanoseconds)) := by
  obtain ⟨hlower, hupper⟩ := elapsed_range now lastReceive
  rw [idleExpired, checkedCount_of_range hlower hupper, toNanoseconds_of_lt hpos h]
  rfl

theorem idleExpired_isSome_iff (hpos : 0 < m.count) :
    (∀ now lastReceive : ClockReading,
      (idleExpired now.nanoseconds lastReceive.nanoseconds m).isSome = true) ↔
      m.count * 1000000 < 2 ^ 63 := by
  constructor
  · intro h
    let zero : ClockReading := ⟨0, le_rfl, by norm_num [hundredYears]⟩
    by_contra hover
    have hnone : m.toNanoseconds = none := if_neg fun hrange => hover hrange.2
    have hzero := h zero zero
    rw [idleExpired, hnone] at hzero
    cases checkedCount (zero.nanoseconds - zero.nanoseconds) <;> cases hzero
  · intro h now lastReceive
    rw [idleExpired_eq hpos h]
    rfl

/-- Where counts do not wrap around either, the two comparisons agree. -/
theorem idleExpiredWrapped_iff (hpos : 0 < m.count) (h : m.count * 1000000 < 2 ^ 63)
    (now lastReceive : ClockReading) :
    idleExpiredWrapped now.nanoseconds lastReceive.nanoseconds m = true ↔
      m.count * 1000000 ≤ now.nanoseconds - lastReceive.nanoseconds := by
  obtain ⟨hlower, hupper⟩ := elapsed_range now lastReceive
  have hcount : wrappedCount m.nanoseconds = m.count * 1000000 :=
    wrappedCount_of_range (by rw [Milliseconds.nanoseconds]; omega) h
  rw [idleExpiredWrapped, hcount, wrappedCount_of_range hlower hupper, decide_eq_true_iff]

end Timing

/-- Exactly the representable options are safe. -/
theorem timingSafe_iff {pollInterval heartbeatInterval idleTimeout : Milliseconds}
    (hpoll : 0 < pollInterval.count) (hheartbeat : 0 < heartbeatInterval.count)
    (hidle : heartbeatInterval.count < idleTimeout.count) :
    TimingSafe pollInterval heartbeatInterval idleTimeout ↔
      Representable pollInterval heartbeatInterval idleTimeout := by
  have hpos : 0 < idleTimeout.count := hheartbeat.trans hidle
  constructor
  · intro h
    exact ⟨(receiveDeadline_isSome_iff hpoll).mp h.deadline,
      (nextHeartbeat_isSome_iff hheartbeat).mp h.heartbeat, (idleExpired_isSome_iff hpos).mp h.idle⟩
  · rintro ⟨hdeadline, hnext, hlimit⟩
    refine ⟨(receiveDeadline_isSome_iff hpoll).mpr hdeadline,
      (nextHeartbeat_isSome_iff hheartbeat).mpr hnext, (idleExpired_isSome_iff hpos).mpr hlimit, ?_⟩
    intro smaller hsmaller hle now lastReceive hexpired
    have hlimit' : smaller.count * 1000000 < 2 ^ 63 := by omega
    rw [idleExpiredWrapped_iff hpos hlimit] at hexpired
    rw [idleExpiredWrapped_iff hsmaller hlimit']
    omega

/-- Accepted options of either kind never overflow exactly if their sums and their idle timeout
are representable; the poll interval of a session always is. -/
theorem accepted_timing_safe_iff (options : ReconnectOptions)
    (sessions : TcpSessionManagerOptions) :
    (validateReconnectOptions options = .ok () →
      (TimingSafe options.ioPollInterval options.heartbeatInterval options.idleTimeout ↔
        Representable options.ioPollInterval options.heartbeatInterval options.idleTimeout)) ∧
    (validateOptions sessions = .ok () →
      (TimingSafe sessions.receivePollInterval sessions.heartbeatInterval sessions.idleTimeout ↔
        hundredYears + sessions.heartbeatInterval.count * 1000000 < 2 ^ 63 ∧
        sessions.idleTimeout.count * 1000000 < 2 ^ 63)) := by
  constructor
  · intro hvalid
    have hchecks := throwIf_eq_ok_iff.mp hvalid
    exact timingSafe_iff (by omega) (by omega) (by omega)
  · intro hvalid
    have hchecks := throwIf_eq_ok_iff.mp hvalid
    have hyears := hundredYears_lt
    rw [timingSafe_iff (by omega) (by omega) (by omega), Representable]
    constructor
    · exact fun h => h.2
    · exact fun h => ⟨by omega, h⟩

/-- The default options are safe. -/
theorem accepted_timing_safe_defaults :
    TimingSafe (ReconnectOptions.ioPollInterval {}) (ReconnectOptions.heartbeatInterval {})
      (ReconnectOptions.idleTimeout {}) ∧
    TimingSafe (TcpSessionManagerOptions.receivePollInterval {})
      (TcpSessionManagerOptions.heartbeatInterval {}) (TcpSessionManagerOptions.idleTimeout {}) :=
  ⟨((accepted_timing_safe_iff {} {}).1 (by decide)).mpr ⟨by decide, by decide, by decide⟩,
    ((accepted_timing_safe_iff {} {}).2 (by decide)).mpr ⟨by decide, by decide⟩⟩

/-- The largest idle timeout is accepted, its comparison overflows, and where counts wrap around
it runs out at once, which the default of a second does not. -/
theorem idle_timeout_overflow :
    let options : ReconnectOptions := { idleTimeout := .ofNat (2 ^ 63 - 1) }
    let sessions : TcpSessionManagerOptions := { idleTimeout := .ofNat (2 ^ 63 - 1) }
    validateReconnectOptions options = .ok () ∧ validateOptions sessions = .ok () ∧
    idleExpired 1000 1000 options.idleTimeout = none ∧
    idleExpired 1000 1000 sessions.idleTimeout = none ∧
    idleExpiredWrapped 1000 1000 options.idleTimeout = true ∧
    idleExpiredWrapped 1000 1000 (ReconnectOptions.idleTimeout {}) = false := by
  decide

end RobotMiddleware
