import RobotMiddleware.BridgeTransportModel
import RobotMiddleware.ClientAccounting

/-! The life of the transport of a `NetworkBridge`: its mode, its one worker, and what holds once a
call of `stop` has returned. -/
namespace RobotMiddleware

namespace BridgeClient
variable {s s' : BridgeClient} {action : ClientAction}

/-- A step of the worker or of `emit_frame` leaves the flags of the bridge alone, and a worker that
has not been started or has ended takes none. -/
structure ThreadStep (s s' : BridgeClient) : Prop where
  stopped : s'.stopped = s.stopped
  running : s'.running = s.running
  ended : s.worker = .none ∨ s.worker = .left →
    s'.worker = s.worker ∧ s'.history.handed = s.history.handed

theorem workerStep_flags {action : WorkerAction} (hs : s.workerStep s.worker action = some s') :
    s'.stopped = s.stopped ∧ s'.running = s.running := by
  cases hsplit : s.worker.isSplit action with
  | false =>
    have hmoves := workerStep_moves hsplit hs
    exact ⟨hmoves.stopped, hmoves.running⟩
  | true =>
    unfold BridgeWorker.isSplit at hsplit
    split at hsplit
    case h_1 now hworker =>
      rw [hworker] at hs
      simp only [workerStep] at hs
      split at hs
      · obtain ⟨-, hs⟩ := Option.ite_none_right_eq_some.mp hs
        cases hs
        exact ⟨rfl, rfl⟩
      · cases hs
    case h_2 connection hworker =>
      rw [hworker] at hs
      cases hs
      exact ⟨rfl, rfl⟩
    case h_3 => cases hsplit

theorem threadStep_of_step (hthread : action.isThread = true) (hs : s.step action = some s') :
    ThreadStep s s' := by
  cases action with
  | worker a =>
    obtain ⟨hstopped, hrunning⟩ := workerStep_flags hs
    refine ⟨hstopped, hrunning, fun hended => ?_⟩
    rw [step] at hs
    rcases hended with hworker | hworker <;> rw [hworker] at hs <;> cases hs
  | emitFrame frame =>
    cases hs
    exact ⟨rfl, rfl, fun _ => ⟨rfl, rfl⟩⟩
  | emitCheck call | emitThrow call =>
    simp only [step] at hs
    split at hs
    · cases hs
      exact ⟨rfl, rfl, fun _ => ⟨rfl, rfl⟩⟩
    · cases hs
  | emitPush call =>
    simp only [step] at hs
    split at hs
    · split at hs
      · cases hs
        exact ⟨rfl, rfl, fun _ => ⟨rfl, rfl⟩⟩
      · cases hs
        exact ⟨rfl, rfl, fun _ => ⟨rfl, rfl⟩⟩
    · cases hs
  | emitCount call =>
    simp only [step] at hs
    split at hs
    · cases hs
      exact ⟨rfl, rfl, fun _ => ⟨rfl, rfl⟩⟩
    · cases hs
      exact ⟨rfl, rfl, fun _ => ⟨rfl, rfl⟩⟩
    · cases hs
  | setFrameSender | startTcpClient | stop | stopRunning | close => cases hthread

end BridgeClient

theorem TransportSetup.mode_ne {Sender : Type} (setup : TransportSetup Sender) :
    setup.mode ≠ .unconfigured ∧ setup.mode ≠ .stopped := by
  cases setup <;> exact ⟨nofun, nofun⟩

def StopPhase.pastExchange : StopPhase → Bool
  | .locking | .exchanging => false
  | _ => true

namespace TransportMembers
variable {Sender : Type} {m m' : TransportMembers Sender} {setup : TransportSetup Sender}
  {subscription : ℕ}

/-- No callback of the subscription runs, and none begins any more. -/
def Cancelled (m : TransportMembers Sender) (subscription : ℕ) : Prop :=
  (m.exports subscription).active = false ∧ (m.exports subscription).running = false

structure Ended (m : TransportMembers Sender) : Prop where
  mode : m.mode = .stopped
  stopped : m.client.stopped = true
  running : m.client.running = false
  joinable : m.joinable = false
  worker : m.client.worker = .none ∨ m.client.worker = .left
  cancelled : ∀ n ∈ m.registered, m.Cancelled n

structure Lifecycle (m : TransportMembers Sender) : Prop where
  once : m.started ≤ 1
  kept : m.terminated = false
  fresh : m.mode = .unconfigured → m.started = 0
  idle : m.started = 0 → m.client.worker = .none ∧ m.joinable = false
  joined : m.joinable = false → m.client.worker = .none ∨ m.client.worker = .left
  stopped : m.mode = .stopped → m.client.stopped = true ∧ m.manualSender = none
  registered : m.mode ≠ .stopped → ∀ n ∈ m.registered, n ∈ m.exportCancellers
  outcomes : ∀ outcome ∈ m.outcomes, ∀ error,
    outcome.fault = some (.middleware error) → outcome.changed = false

def SetupAt (m : TransportMembers Sender) (setup : TransportSetup Sender) :
    SetupPhase → Bool → Prop
  | .checking, changed | .locking, changed | .rechecking, changed => changed = false
  | .lockingConfiguration, changed | .setting, changed =>
    changed = false ∧ m.client.stopped = false
  | .creating, _ | .stoppingRunning, _ | .relocking, _ | .restoring, _ =>
    m.started = 0 ∧ m.mode = setup.mode ∧ m.client.stopped = false
  | .unlocking fault, changed => ∀ error, fault = some (.middleware error) → changed = false

def StopAt (m : TransportMembers Sender) : StopPhase → Prop
  | .locking | .exchanging => True
  | .lockingConfiguration | .swapping => m.client.stopped = true ∧ m.mode ≠ .stopped
  | .cancelling exports => m.mode = .stopped ∧ ∀ n ∈ m.registered, n ∈ exports ∨ m.Cancelled n
  | .waitingExport subscription exports => m.mode = .stopped ∧
      (m.exports subscription).active = false ∧
      ∀ n ∈ m.registered, n ∈ exports ∨ n = subscription ∨ m.Cancelled n
  | .closing | .connecting | .joining => m.mode = .stopped ∧ m.client.running = false ∧
      ∀ n ∈ m.registered, m.Cancelled n
  | .unlocking => m.Ended

def CallAt (m : TransportMembers Sender) : TransportCall Sender → Prop
  | .exporting _ (.inserting _) => m.mode ≠ .stopped
  | .exporting _ _ | .none => True
  | .setup setup phase changed => m.SetupAt setup phase changed
  | .stopping phase => m.StopAt phase

/-- A step that leaves the transport alone, and at most cancels exports. -/
structure Frames (m m' : TransportMembers Sender) : Prop where
  stopped : m'.client.stopped = m.client.stopped
  running : m'.client.running = m.client.running
  mode : m'.mode = m.mode
  started : m'.started = m.started
  joinable : m'.joinable = m.joinable
  worker : m.client.worker = .none ∨ m.client.worker = .left → m'.client.worker = m.client.worker
  registered : m.mode = .stopped → m'.registered = m.registered
  active : ∀ n, (m.exports n).active = false → (m'.exports n).active = false
  cancelled : ∀ n, m.Cancelled n → m'.Cancelled n

theorem Ended.frame (h : m.Ended) (hm : m.Frames m') : m'.Ended where
  mode := hm.mode.trans h.mode
  stopped := hm.stopped.trans h.stopped
  running := hm.running.trans h.running
  joinable := hm.joinable.trans h.joinable
  worker := hm.worker h.worker ▸ h.worker
  cancelled n hn := hm.cancelled n (h.cancelled n (hm.registered h.mode ▸ hn))

theorem SetupAt.frame {phase : SetupPhase} {changed : Bool} (h : m.SetupAt setup phase changed)
    (hm : m.Frames m') : m'.SetupAt setup phase changed := by
  cases phase with
  | checking | locking | rechecking | unlocking fault => exact h
  | lockingConfiguration | setting => exact ⟨h.1, hm.stopped.trans h.2⟩
  | creating | stoppingRunning | relocking | restoring =>
    exact ⟨hm.started.trans h.1, hm.mode.trans h.2.1, hm.stopped.trans h.2.2⟩

theorem StopAt.frame {phase : StopPhase} (h : m.StopAt phase) (hm : m.Frames m') :
    m'.StopAt phase := by
  cases phase with
  | locking | exchanging => trivial
  | lockingConfiguration | swapping => exact ⟨hm.stopped.trans h.1, hm.mode ▸ h.2⟩
  | cancelling exports =>
    refine ⟨hm.mode.trans h.1, fun n hn => ?_⟩
    rw [hm.registered h.1] at hn
    exact (h.2 n hn).imp_right (hm.cancelled n)
  | waitingExport subscription exports =>
    refine ⟨hm.mode.trans h.1, hm.active _ h.2.1, fun n hn => ?_⟩
    rw [hm.registered h.1] at hn
    exact (h.2.2 n hn).imp_right (.imp_right (hm.cancelled n))
  | closing | connecting | joining =>
    refine ⟨hm.mode.trans h.1, hm.running.trans h.2.1, fun n hn => ?_⟩
    rw [hm.registered h.1] at hn
    exact hm.cancelled n (h.2.2 n hn)
  | unlocking => exact Ended.frame h hm

theorem CallAt.frame {call : TransportCall Sender} (h : m.CallAt call) (hm : m.Frames m') :
    m'.CallAt call := by
  cases call with
  | none => trivial
  | exporting remoteTopic phase =>
    cases phase with
    | inserting subscription => exact fun hmode => h (hm.mode.symm.trans hmode)
    | _ => trivial
  | setup setup phase changed => exact SetupAt.frame h hm
  | stopping phase => exact StopAt.frame h hm

/-- A call without the stop mutex depends on the mode alone. -/
theorem CallAt.other {call : TransportCall Sender} (h : m.CallAt call)
    (hstop : call.holdsStop = false)
    (hmode : call.holdsConfiguration = true → m.mode ≠ .stopped → m'.mode ≠ .stopped) :
    m'.CallAt call := by
  cases call with
  | none => trivial
  | exporting remoteTopic phase =>
    cases phase with
    | inserting subscription => exact hmode rfl h
    | _ => trivial
  | setup setup phase changed =>
    cases phase with
    | checking | locking => exact h
    | _ => cases hstop
  | stopping phase =>
    cases phase with
    | locking => trivial
    | _ => cases hstop

theorem Frames.refl : m.Frames m :=
  ⟨rfl, rfl, rfl, rfl, rfl, fun _ => rfl, fun _ => rfl, fun _ h => h, fun _ h => h⟩

@[simp] theorem exports_setExport {state : TransportExport} :
    (m.setExport subscription state).exports = Function.update m.exports subscription state := rfl

/-- One subscription changes, and is cancelled no less than before. -/
theorem Frames.setExport {state : TransportExport}
    (hactive : (m.exports subscription).active = false → state.active = false)
    (hcancelled : m.Cancelled subscription → state.running = false) :
    m.Frames (m.setExport subscription state) := by
  have hkept (n : ℕ) (h : (m.exports n).active = false) :
      ((m.setExport subscription state).exports n).active = false := by
    by_cases hn : n = subscription
    · subst hn
      rw [exports_setExport, Function.update_self]
      exact hactive h
    · rw [exports_setExport, Function.update_of_ne hn]
      exact h
  refine ⟨rfl, rfl, rfl, rfl, rfl, fun _ => rfl, fun _ => rfl, hkept, fun n h => ⟨hkept n h.1, ?_⟩⟩
  by_cases hn : n = subscription
  · subst hn
    rw [exports_setExport, Function.update_self]
    exact hcancelled h
  · rw [exports_setExport, Function.update_of_ne hn]
    exact h.2

theorem Frames.dropExport : m.Frames (m.dropExport subscription) :=
  .setExport (fun _ => rfl) fun h => h.2

/-- A registration leaves the transport alone, and is over before the first call of `stop` takes
the cancellers. -/
theorem Lifecycle.exportStep {remoteTopic : Bytes} {phase : ExportPhase} {phase' : Option ExportPhase}
    {failed : Bool} (h : m.Lifecycle) (hcall : m.CallAt (.exporting remoteTopic phase))
    (hs : m.exportStep remoteTopic phase failed = some (m', phase')) :
    m.Frames m' ∧ m'.Lifecycle ∧ m'.CallAt (phase'.elim .none (.exporting remoteTopic)) := by
  unfold TransportMembers.exportStep at hs
  split at hs
  case h_1 =>
    cases hs
    refine ⟨.refl, h, ?_⟩
    split <;> trivial
  case h_2 =>
    cases hs
    exact ⟨⟨rfl, rfl, rfl, rfl, rfl, fun _ => rfl, fun _ => rfl, fun _ h => h, fun _ h => h⟩,
      { h with }, trivial⟩
  case h_3 =>
    cases hs
    exact ⟨.refl, h, trivial⟩
  case h_4 =>
    cases hs
    exact ⟨.refl, h, trivial⟩
  case h_5 =>
    split at hs
    case isTrue =>
      cases hs
      exact ⟨.dropExport, { h with }, trivial⟩
    case isFalse hgoing =>
      cases hs
      exact ⟨.refl, h, fun hmode => hgoing (h.stopped hmode).1⟩
  case h_6 subscription failed =>
    split at hs
    case isTrue =>
      cases hs
      exact ⟨.dropExport, { h with }, trivial⟩
    case isFalse =>
      cases hs
      have hmode : m.mode ≠ .stopped := hcall
      refine ⟨⟨rfl, rfl, rfl, rfl, rfl, fun _ => rfl, fun hstopped => absurd hstopped hmode,
        fun _ h => h, fun _ h => h⟩, { h with registered := fun _ n hn => ?_ }, trivial⟩
      rcases List.mem_append.mp hn with hn | hn
      · exact List.mem_append_left _ (h.registered hmode n hn)
      · exact List.mem_append_right _ hn
  case h_7 => cases hs

/-- A configuring call is over, and what it threw is noted. -/
theorem Lifecycle.note (h : m.Lifecycle) {outcome : SetupOutcome}
    (houtcome : ∀ error, outcome.fault = some (.middleware error) → outcome.changed = false) :
    Lifecycle { m with outcomes := m.outcomes ++ [outcome] } :=
  { h with
    outcomes := by
      intro other hother
      rcases List.mem_append.mp hother with hother | hother
      · exact h.outcomes other hother
      · rw [List.mem_singleton.mp hother]
        exact houtcome }

theorem Lifecycle.configure (h : m.Lifecycle) (hmode : m.mode = .unconfigured) :
    (m.configure setup).Lifecycle where
  once := h.once
  kept := h.kept
  fresh hfresh := absurd hfresh setup.mode_ne.1
  idle := h.idle
  joined := h.joined
  stopped hmode := absurd hmode setup.mode_ne.2
  registered _ := h.registered (by rw [hmode]; nofun)
  outcomes := h.outcomes

theorem Lifecycle.startWorker (h : m.Lifecycle) (hstarted : m.started = 0)
    (hmode : m.mode = setup.mode) : (m.startWorker setup).Lifecycle where
  once := by
    show m.started + 1 ≤ 1
    omega
  kept := by
    show (m.terminated || m.joinable) = false
    rw [h.kept, (h.idle hstarted).2]
    rfl
  fresh hfresh := absurd (hmode.symm.trans hfresh) setup.mode_ne.1
  idle := nofun
  joined := nofun
  stopped hstopped := absurd (hmode.symm.trans hstopped) setup.mode_ne.2
  registered := h.registered
  outcomes := h.outcomes

theorem Lifecycle.restore (h : m.Lifecycle) (hstarted : m.started = 0)
    (hmode : m.mode = setup.mode) : (m.restore setup).Lifecycle where
  once := h.once
  kept := h.kept
  fresh _ := hstarted
  idle := h.idle
  joined := h.joined
  stopped := nofun
  registered _ := h.registered (by rw [hmode]; exact setup.mode_ne.2)
  outcomes := h.outcomes

/-- What a step of a configuring call does to the others: nothing that they can see, or it has
`stop_mutex_` and `stop` has not begun. -/
def Excludes (m m' : TransportMembers Sender) (call : TransportCall Sender) : Prop :=
  m.Frames m' ∨
    (call.holdsStop = true ∧ m'.client.stopped = false ∧ m'.mode ≠ .stopped)

variable [DecidableEq Sender]

theorem Lifecycle.setupStep {phase : SetupPhase} {changed failed : Bool}
    {call' : TransportCall Sender} (h : m.Lifecycle) (hcall : m.SetupAt setup phase changed)
    (hs : m.callStep (.setup setup phase changed) failed = some (m', call')) :
    m.Excludes m' (.setup setup phase changed) ∧ m'.Lifecycle ∧ m'.CallAt call' := by
  obtain ⟨⟨after, status⟩, hstep, heq⟩ := Option.map_eq_some_iff.mp hs
  have hsame : (changed || decide (m.transport ≠ m.transport)) = changed := by simp
  -- the call goes on, or ends, without having touched the members
  have hmove (next : SetupPhase) (hafter : (after, status) = (m, .inl next))
      (hnext : m.SetupAt setup next changed) :
      m.Excludes m' (.setup setup phase changed) ∧ m'.Lifecycle ∧ m'.CallAt call' := by
    cases hafter
    cases heq
    refine ⟨.inl .refl, h, ?_⟩
    rw [hsame]
    exact hnext
  have hreturn {fault : Option ConfigureFault}
      (hfault : ∀ error, fault = some (.middleware error) → changed = false)
      (hafter : (after, status) = (m, .inr fault)) :
      m.Excludes m' (.setup setup phase changed) ∧ m'.Lifecycle ∧ m'.CallAt call' := by
    cases hafter
    cases heq
    refine ⟨.inl ⟨rfl, rfl, rfl, rfl, rfl, fun _ => rfl, fun _ => rfl, fun _ h => h,
      fun _ h => h⟩, ?_, trivial⟩
    rw [hsame]
    exact h.note hfault
  cases phase with
  | checking =>
    cases failed with
    | true => cases hstep
    | false =>
      simp only [TransportMembers.setupStep] at hstep
      split at hstep
      · exact hreturn (fun _ _ => hcall) (Option.some.inj hstep).symm
      · split at hstep
        · exact hmove .locking (Option.some.inj hstep).symm hcall
        · exact hreturn (fun _ _ => hcall) (Option.some.inj hstep).symm
  | locking =>
    cases failed with
    | true => cases hstep
    | false => exact hmove .rechecking (Option.some.inj hstep).symm hcall
  | rechecking =>
    cases failed with
    | true => cases hstep
    | false =>
      simp only [TransportMembers.setupStep] at hstep
      cases hstopped : m.client.stopped with
      | true =>
        rw [hstopped] at hstep
        exact hmove (.unlocking _) (Option.some.inj hstep).symm fun _ _ => hcall
      | false =>
        rw [hstopped] at hstep
        exact hmove .lockingConfiguration (Option.some.inj hstep).symm ⟨hcall, hstopped⟩
  | lockingConfiguration =>
    cases failed with
    | true => cases hstep
    | false => exact hmove .setting (Option.some.inj hstep).symm hcall
  | setting =>
    obtain ⟨hunchanged, hstopped⟩ := hcall
    simp only [TransportMembers.setupStep] at hstep
    split at hstep
    case isTrue =>
      obtain ⟨-, hstep⟩ := Option.ite_none_left_eq_some.mp hstep
      exact hmove (.unlocking _) (Option.some.inj hstep).symm fun _ _ => hunchanged
    case isFalse hmode =>
      rw [not_not] at hmode
      split at hstep
      · obtain ⟨-, hstep⟩ := Option.ite_none_right_eq_some.mp hstep
        exact hmove (.unlocking _) (Option.some.inj hstep).symm fun _ _ => hunchanged
      · cases hstep
        cases heq
        exact ⟨.inr ⟨rfl, hstopped, setup.mode_ne.2⟩, h.configure hmode,
          h.fresh hmode, rfl, hstopped⟩
  | creating =>
    obtain ⟨hstarted, hmode, hstopped⟩ := hcall
    cases failed with
    | true => exact hmove .stoppingRunning (Option.some.inj hstep).symm ⟨hstarted, hmode, hstopped⟩
    | false =>
      cases hstep
      cases heq
      have hclient : (m.startWorker setup).client.stopped = false := by
        cases setup <;> exact hstopped
      exact ⟨.inr ⟨rfl, hclient, fun hmode' => setup.mode_ne.2
        (hmode.symm.trans hmode')⟩, h.startWorker hstarted hmode, nofun⟩
  | stoppingRunning =>
    cases failed with
    | true => cases hstep
    | false =>
      obtain ⟨hstarted, hmode, hstopped⟩ := hcall
      cases hstep
      cases heq
      exact ⟨.inr ⟨rfl, hstopped, fun hmode' => setup.mode_ne.2
        (hmode.symm.trans hmode')⟩, { h with }, hstarted, hmode, hstopped⟩
  | relocking =>
    cases failed with
    | true => cases hstep
    | false => exact hmove .restoring (Option.some.inj hstep).symm hcall
  | restoring =>
    cases failed with
    | true => cases hstep
    | false =>
      obtain ⟨hstarted, hmode, hstopped⟩ := hcall
      cases hstep
      cases heq
      exact ⟨.inr ⟨rfl, hstopped, nofun⟩, h.restore hstarted hmode, nofun⟩
  | unlocking fault =>
    cases failed with
    | true => cases hstep
    | false => exact hreturn hcall (Option.some.inj hstep).symm

omit [DecidableEq Sender] in
/-- Every step of `stop` brings it closer to what it leaves behind; a call that is not the first
finds that already there. -/
theorem Lifecycle.stopStep {phase : StopPhase} {phase' : Option StopPhase} (h : m.Lifecycle)
    (hcall : m.StopAt phase) (hended : phase = .exchanging → m.client.stopped = true → m.Ended)
    (hs : m.stopStep phase = some (m', phase')) :
    m'.Lifecycle ∧ m'.CallAt (phase'.elim .none .stopping) ∧
      ((phase = .locking ∧ m' = m) ∨ (∃ next, phase' = some next ∧ next.pastExchange = true) ∨
        m'.Ended) ∧
      (m'.mode = m.mode ∨ phase = .swapping) := by
  cases phase with
  | locking =>
    cases hs
    exact ⟨h, trivial, .inl ⟨rfl, rfl⟩, .inl rfl⟩
  | exchanging =>
    cases hs
    refine ⟨{ h with stopped := fun hmode => ⟨rfl, (h.stopped hmode).2⟩ }, ?_, .inr (.inl ?_),
      .inl rfl⟩
    · show StopAt _ (if m.client.stopped then .connecting else .lockingConfiguration)
      cases hstopped : m.client.stopped with
      | true =>
        have hdone := hended rfl hstopped
        exact ⟨hdone.mode, hdone.running, hdone.cancelled⟩
      | false =>
        have hmode : m.mode ≠ .stopped := fun hmode => by
          rw [(h.stopped hmode).1] at hstopped
          cases hstopped
        exact ⟨rfl, hmode⟩
    · refine ⟨_, rfl, ?_⟩
      split <;> rfl
  | lockingConfiguration =>
    cases hs
    exact ⟨h, hcall, .inr (.inl ⟨_, rfl, rfl⟩), .inl rfl⟩
  | swapping =>
    cases hs
    refine ⟨?_, ⟨rfl, fun n hn => ?_⟩, .inr (.inl ⟨_, rfl, rfl⟩), .inr rfl⟩
    · exact { h with
        fresh := nofun
        stopped := fun _ => ⟨hcall.1, rfl⟩
        registered := fun hmode => absurd rfl hmode }
    · exact .inl (h.registered hcall.2 n hn)
  | cancelling exports =>
    cases exports with
    | nil =>
      cases hs
      refine ⟨{ h with }, ⟨hcall.1, rfl, fun n hn => ?_⟩, .inr (.inl ⟨_, rfl, rfl⟩), .inl rfl⟩
      rcases hcall.2 n hn with hnil | hcancelled
      · cases hnil
      · exact hcancelled
    | cons subscription exports =>
      cases hs
      refine ⟨{ h with }, ⟨hcall.1, ?_, fun n hn => ?_⟩, .inr (.inl ⟨_, rfl, rfl⟩), .inl rfl⟩
      · rw [exports_setExport, Function.update_self]
      · rcases hcall.2 n hn with hlisted | hcancelled
        · exact (List.mem_cons.mp hlisted).elim (fun hn => .inr (.inl hn)) .inl
        · exact .inr (.inr (Frames.dropExport.cancelled n hcancelled))
  | waitingExport subscription exports =>
    obtain ⟨hrunning, hs⟩ := Option.ite_none_left_eq_some.mp hs
    cases hs
    obtain ⟨hmode, hactive, hexports⟩ := hcall
    refine ⟨h, ⟨hmode, fun n hn => ?_⟩, .inr (.inl ⟨_, rfl, rfl⟩), .inl rfl⟩
    rcases hexports n hn with hlisted | rfl | hcancelled
    · exact .inl hlisted
    · exact .inr ⟨hactive, Bool.not_eq_true _ ▸ hrunning⟩
    · exact .inr hcancelled
  | closing =>
    cases hs
    exact ⟨{ h with }, hcall, .inr (.inl ⟨_, rfl, rfl⟩), .inl rfl⟩
  | connecting =>
    cases hs
    refine ⟨h, ?_, .inr (.inl ⟨_, rfl, ?_⟩), .inl rfl⟩
    · show StopAt _ (if m.joinable then .joining else .unlocking)
      split
      case isTrue => exact hcall
      case isFalse hjoinable =>
        obtain ⟨hmode, hrunning, hcancelled⟩ := hcall
        rw [Bool.not_eq_true] at hjoinable
        exact ⟨hmode, (h.stopped hmode).1, hrunning, hjoinable, h.joined hjoinable, hcancelled⟩
    · split <;> rfl
  | joining =>
    obtain ⟨hworker, hs⟩ := Option.ite_none_right_eq_some.mp hs
    cases hs
    obtain ⟨hmode, hrunning, hcancelled⟩ := hcall
    have hdone : Ended { m with joinable := false } :=
      ⟨hmode, (h.stopped hmode).1, hrunning, rfl, .inr hworker, hcancelled⟩
    refine ⟨{ h with idle := fun hstarted => ?_, joined := fun _ => .inr hworker }, hdone,
      .inr (.inl ⟨_, rfl, rfl⟩), .inl rfl⟩
    exact ⟨(h.idle hstarted).1, rfl⟩
  | unlocking =>
    cases hs
    have hdone : Ended { m with stopsReturned := m.stopsReturned + 1 } := { (hcall : m.Ended) with }
    exact ⟨{ h with }, trivial, .inr (.inr hdone), .inl rfl⟩

structure Lasts (m m' : TransportMembers Sender) (call : TransportCall Sender) : Prop where
  history : m'.client.history = m.client.history
  stopped : m.client.stopped = true → m'.client.stopped = true
  returned : m'.stopsReturned = m.stopsReturned ∨ call = .stopping .unlocking

inductive SetupEffect (m m' : TransportMembers Sender) (setup : TransportSetup Sender) :
    SetupPhase → Prop
  | none (phase : SetupPhase) : m'.mode = m.mode → m'.started = m.started →
      SetupEffect m m' setup phase
  | configured : m.mode = .unconfigured → m'.mode = setup.mode → m'.started = m.started →
      SetupEffect m m' setup .setting
  | started : m'.mode = m.mode → SetupEffect m m' setup .creating
  | restored : m'.mode = .unconfigured → m'.started = m.started →
      SetupEffect m m' setup .restoring

omit [DecidableEq Sender] in
theorem setupStep_effect (call : TransportCall Sender) {phase : SetupPhase} {failed : Bool}
    {status : SetupPhase ⊕ Option ConfigureFault}
    (hs : m.setupStep setup phase failed = some (m', status)) :
    m.Lasts m' call ∧ m.SetupEffect m' setup phase := by
  have hlasts : m.Lasts m call := ⟨rfl, id, .inl rfl⟩
  unfold setupStep at hs
  split at hs
  case h_1 =>
    split at hs
    · cases hs
      exact ⟨hlasts, .none _ rfl rfl⟩
    · split at hs
      · cases hs
        exact ⟨hlasts, .none _ rfl rfl⟩
      · cases hs
        exact ⟨hlasts, .none _ rfl rfl⟩
  case h_5 =>
    split at hs
    case isTrue =>
      obtain ⟨-, hs⟩ := Option.ite_none_left_eq_some.mp hs
      cases hs
      exact ⟨hlasts, .none _ rfl rfl⟩
    case isFalse hmode =>
      rw [not_not] at hmode
      split at hs
      · obtain ⟨-, hs⟩ := Option.ite_none_right_eq_some.mp hs
        cases hs
        exact ⟨hlasts, .none _ rfl rfl⟩
      · cases hs
        exact ⟨⟨rfl, id, .inl rfl⟩, .configured hmode rfl rfl⟩
  case h_6 =>
    cases hs
    refine ⟨⟨?_, ?_, .inl rfl⟩, .started rfl⟩
    · cases setup <;> rfl
    · cases setup <;> exact id
  case h_8 =>
    cases hs
    exact ⟨⟨rfl, id, .inl rfl⟩, .none _ rfl rfl⟩
  case h_10 =>
    cases hs
    exact ⟨⟨rfl, id, .inl rfl⟩, .restored rfl rfl⟩
  case h_12 => cases hs
  all_goals
    cases hs
    exact ⟨hlasts, .none _ rfl rfl⟩

omit [DecidableEq Sender] in
theorem exportStep_lasts (call : TransportCall Sender) {remoteTopic : Bytes} {phase : ExportPhase}
    {phase' : Option ExportPhase} {failed : Bool}
    (hs : m.exportStep remoteTopic phase failed = some (m', phase')) :
    m.Lasts m' call ∧ m'.started = m.started := by
  unfold TransportMembers.exportStep at hs
  split at hs
  case h_5 | h_6 =>
    split at hs
    · cases hs
      exact ⟨⟨rfl, id, .inl rfl⟩, rfl⟩
    · cases hs
      exact ⟨⟨rfl, id, .inl rfl⟩, rfl⟩
  case h_7 => cases hs
  all_goals
    cases hs
    exact ⟨⟨rfl, id, .inl rfl⟩, rfl⟩

omit [DecidableEq Sender] in
/-- Calls of `stop` after the first change nothing of what it leaves behind. -/
theorem stopStep_lasts {phase : StopPhase} {phase' : Option StopPhase}
    (hs : m.stopStep phase = some (m', phase')) :
    m.Lasts m' (.stopping phase) ∧ m'.started = m.started ∧
      (m'.mode = m.mode ∨ phase = .swapping ∧ m'.mode = .stopped) ∧
      (m.Ended → m.StopAt phase → m'.Ended) := by
  cases phase with
  | locking | lockingConfiguration =>
    cases hs
    exact ⟨⟨rfl, id, .inl rfl⟩, rfl, .inl rfl, fun h _ => h⟩
  | connecting =>
    cases hs
    exact ⟨⟨rfl, id, .inl rfl⟩, rfl, .inl rfl, fun h _ => h⟩
  | exchanging =>
    cases hs
    exact ⟨⟨rfl, fun _ => rfl, .inl rfl⟩, rfl, .inl rfl, fun h _ => { h with stopped := rfl }⟩
  | swapping =>
    cases hs
    exact ⟨⟨rfl, id, .inl rfl⟩, rfl, .inr ⟨rfl, rfl⟩, fun h hat => absurd h.mode hat.2⟩
  | cancelling exports =>
    cases exports with
    | nil =>
      cases hs
      exact ⟨⟨rfl, id, .inl rfl⟩, rfl, .inl rfl, fun h _ => { h with running := rfl }⟩
    | cons subscription exports =>
      cases hs
      exact ⟨⟨rfl, id, .inl rfl⟩, rfl, .inl rfl, fun h _ => h.frame .dropExport⟩
  | waitingExport subscription exports =>
    obtain ⟨-, hs⟩ := Option.ite_none_left_eq_some.mp hs
    cases hs
    exact ⟨⟨rfl, id, .inl rfl⟩, rfl, .inl rfl, fun h _ => h⟩
  | closing =>
    cases hs
    exact ⟨⟨rfl, id, .inl rfl⟩, rfl, .inl rfl, fun h _ => { h with }⟩
  | joining =>
    obtain ⟨-, hs⟩ := Option.ite_none_right_eq_some.mp hs
    cases hs
    exact ⟨⟨rfl, id, .inl rfl⟩, rfl, .inl rfl, fun h _ => { h with joinable := rfl }⟩
  | unlocking =>
    cases hs
    exact ⟨⟨rfl, id, .inr rfl⟩, rfl, .inl rfl, fun h _ => { h with }⟩

omit [DecidableEq Sender] in
/-- A callback begins only where the subscription is active. -/
theorem Frames.callbackBegin (hactive : (m.exports subscription).active = true) :
    m.Frames (m.setExport subscription { m.exports subscription with running := true }) := by
  refine .setExport id fun hcancelled => ?_
  rw [hcancelled.1] at hactive
  cases hactive

omit [DecidableEq Sender] in
theorem Frames.client {client : BridgeClient}
    (h : m.client.ThreadStep client) : m.Frames { m with client := client } :=
  ⟨h.stopped, h.running, rfl, rfl, rfl, fun hworker => (h.ended hworker).1, fun _ => rfl,
    fun _ h => h, fun _ h => h⟩

omit [DecidableEq Sender] in
theorem Lifecycle.client {client : BridgeClient}
    (hm : m.Lifecycle) (h : m.client.ThreadStep client) : Lifecycle { m with client := client } :=
  { hm with
    idle := by
      intro hstarted
      obtain ⟨hworker, hjoinable⟩ := hm.idle hstarted
      exact ⟨(h.ended (.inl hworker)).1.trans hworker, hjoinable⟩
    joined := by
      intro hjoinable
      have hworker := hm.joined hjoinable
      rw [← (h.ended hworker).1] at hworker
      exact hworker
    stopped := fun hmode => ⟨h.stopped.trans (hm.stopped hmode).1, (hm.stopped hmode).2⟩ }

end TransportMembers
namespace BridgeTransport
variable {Tid Sender : Type} [DecidableEq Tid] [DecidableEq Sender]
  {s s' : BridgeTransport Tid Sender} {t : Tid}

omit [DecidableEq Tid] [DecidableEq Sender] in
def Stopping (s : BridgeTransport Tid Sender) : Prop :=
  ∃ t phase, s.calls t = .stopping phase ∧ phase.pastExchange = true

structure TransportInvariant (s : BridgeTransport Tid Sender) : Prop where
  stopMutex : ScopedLock.Held s.stopMutex s.calls TransportCall.holdsStop
  configurationMutex :
    ScopedLock.Held s.configurationMutex s.calls TransportCall.holdsConfiguration
  lifecycle : s.members.Lifecycle
  calls : ∀ t, s.members.CallAt (s.calls t)
  ended : s.members.client.stopped = true → s.members.Ended ∨ s.Stopping

omit [DecidableEq Tid] [DecidableEq Sender] in
/-- A step that is in none of the calls. -/
theorem TransportInvariant.frame {m : TransportMembers Sender} (h : s.TransportInvariant)
    (hm : s.members.Frames m) (hlifecycle : m.Lifecycle) :
    TransportInvariant { s with members := m } where
  stopMutex := h.stopMutex
  configurationMutex := h.configurationMutex
  lifecycle := hlifecycle
  calls t := (h.calls t).frame hm
  ended hstopped := (h.ended (hm.stopped.symm.trans hstopped)).imp_left (·.frame hm)

omit [DecidableEq Sender] in
theorem exists_of_move {m : TransportMembers Sender} {call : TransportCall Sender}
    (hs : s.move t m call = some s') :
    s'.members = m ∧ s'.calls = Function.update s.calls t call ∧
      ScopedLock.pass s.stopMutex t (s.calls t).holdsStop call.holdsStop = some s'.stopMutex ∧
      ScopedLock.pass s.configurationMutex t (s.calls t).holdsConfiguration
        call.holdsConfiguration = some s'.configurationMutex := by
  obtain ⟨stopMutex, hstop, hs⟩ := Option.bind_eq_some_iff.mp hs
  obtain ⟨configurationMutex, hconfiguration, hs⟩ := Option.bind_eq_some_iff.mp hs
  cases hs
  exact ⟨rfl, rfl, hstop, hconfiguration⟩

omit [DecidableEq Sender] in
/-- One call moves on: what it does to the members has to suit it, the other calls and what is
left behind. -/
theorem TransportInvariant.move {m : TransportMembers Sender} {call : TransportCall Sender}
    (h : s.TransportInvariant) (hs : s.move t m call = some s') (hlifecycle : m.Lifecycle)
    (hcall : m.CallAt call) (hothers : ∀ u ≠ t, m.CallAt (s.calls u))
    (hended : m.client.stopped = true → m.Ended ∨ s'.Stopping) : s'.TransportInvariant := by
  obtain ⟨rfl, hcalls, hstop, hconfiguration⟩ := exists_of_move hs
  refine ⟨?_, ?_, hlifecycle, fun u => ?_, hended⟩
  · rw [hcalls]
    exact h.stopMutex.pass hstop
  · rw [hcalls]
    exact h.configurationMutex.pass hconfiguration
  · rw [hcalls]
    by_cases hut : u = t
    · subst hut
      rw [Function.update_self]
      exact hcall
    · rw [Function.update_of_ne hut]
      exact hothers u hut

omit [DecidableEq Tid] [DecidableEq Sender] in
/-- What a call does with `stop_mutex_` in its hand no other call depends on, up to the mode. -/
theorem TransportInvariant.others {m : TransportMembers Sender} (h : s.TransportInvariant)
    (hstop : (s.calls t).holdsStop = true)
    (hmode : m.mode = s.members.mode ∨ m.mode ≠ .stopped ∨ (s.calls t).holdsConfiguration = true)
    {u : Tid} (hut : u ≠ t) : m.CallAt (s.calls u) := by
  have hfree : (s.calls u).holdsStop = false :=
    Bool.eq_false_of_not_eq_true fun hu => hut (h.stopMutex.eq hu hstop)
  refine (h.calls u).other hfree fun hu hbefore => ?_
  rcases hmode with hsame | hmode | hconfiguration
  · rw [hsame]
    exact hbefore
  · exact hmode
  · exact absurd (h.configurationMutex.eq hu hconfiguration) hut

omit [DecidableEq Sender] in
/-- The call of another thread goes on. -/
theorem Stopping.update {call : TransportCall Sender} (h : s.Stopping)
    (hcalls : s'.calls = Function.update s.calls t call)
    (hother : ∀ phase, s.calls t = .stopping phase → phase.pastExchange = false) :
    s'.Stopping := by
  obtain ⟨u, phase, hu, hpast⟩ := h
  have hut : u ≠ t := by
    rintro rfl
    rw [hother phase hu] at hpast
    cases hpast
  exact ⟨u, phase, by rw [hcalls, Function.update_of_ne hut, hu], hpast⟩

omit [DecidableEq Sender] in
theorem TransportInvariant.begin {call : TransportCall Sender} (h : s.TransportInvariant)
    (hs : s.begin t call = some s') (hcall : s.members.CallAt call)
    (hstop : call.holdsStop = false) (hconfiguration : call.holdsConfiguration = false) :
    s'.TransportInvariant := by
  unfold BridgeTransport.begin at hs
  split at hs
  case h_1 hnone =>
    have hmove : s.move t s.members call = some s' := by
      rw [← hs, BridgeTransport.move, hnone, hstop, hconfiguration]
      rfl
    have hcalls := (exists_of_move hmove).2.1
    have hother (phase : StopPhase) (hphase : s.calls t = .stopping phase) :
        phase.pastExchange = false := by
      rw [hnone] at hphase
      cases hphase
    exact h.move hmove h.lifecycle hcall (fun u _ => h.calls u) fun hstopped =>
      (h.ended hstopped).imp_right (·.update hcalls hother)
  case h_2 => cases hs

/-- One step of a call. -/
theorem TransportInvariant.next {failed : Bool} (h : s.TransportInvariant)
    (hs : s.step (.next t failed) = some s') : s'.TransportInvariant := by
  obtain ⟨⟨m, call⟩, hstep, hmove⟩ := Option.bind_eq_some_iff.mp hs
  have hcalls := (exists_of_move hmove).2.1
  have hat := h.calls t
  cases hcall : s.calls t with
  | none =>
    rw [hcall] at hstep
    cases hstep
  | exporting remoteTopic phase =>
    rw [hcall] at hstep hat
    obtain ⟨⟨after, phase'⟩, hexport, heq⟩ := Option.map_eq_some_iff.mp hstep
    cases heq
    obtain ⟨hframe, hlifecycle, hnext⟩ := h.lifecycle.exportStep hat hexport
    have hother (phase : StopPhase) (hphase : s.calls t = .stopping phase) :
        phase.pastExchange = false := by
      rw [hcall] at hphase
      cases hphase
    exact h.move hmove hlifecycle hnext (fun u _ => (h.calls u).frame hframe) fun hstopped =>
      (h.ended (hframe.stopped.symm.trans hstopped)).imp (·.frame hframe) (·.update hcalls hother)
  | setup setup phase changed =>
    rw [hcall] at hstep hat
    obtain ⟨hexcludes, hlifecycle, hnext⟩ := h.lifecycle.setupStep hat hstep
    have hother (phase : StopPhase) (hphase : s.calls t = .stopping phase) :
        phase.pastExchange = false := by
      rw [hcall] at hphase
      cases hphase
    rcases hexcludes with hframe | ⟨hstop, hstopped', hmode⟩
    · exact h.move hmove hlifecycle hnext (fun u _ => (h.calls u).frame hframe) fun hstopped =>
        (h.ended (hframe.stopped.symm.trans hstopped)).imp (·.frame hframe)
          (·.update hcalls hother)
    · rw [← hcall] at hstop
      refine h.move hmove hlifecycle hnext (fun u hut => h.others hstop (.inr (.inl hmode)) hut) ?_
      intro hstopped
      rw [hstopped'] at hstopped
      cases hstopped
  | stopping phase =>
    rw [hcall] at hstep hat
    cases failed with
    | true => cases hstep
    | false =>
      obtain ⟨⟨after, phase'⟩, hstop, heq⟩ := Option.map_eq_some_iff.mp hstep
      cases heq
      have hexchanging (hphase : phase = .exchanging) (hstopped : s.members.client.stopped = true) :
          s.members.Ended := by
        rcases h.ended hstopped with hended | ⟨u, other, hu, hpast⟩
        · exact hended
        · -- the other call would have the mutex too
          have hut : u = t := by
            apply h.stopMutex.eq
            · rw [hu]
              cases other <;> first | rfl | cases hpast
            · rw [hcall, hphase]
              rfl
          rw [hut, hcall, hphase] at hu
          cases hu
          cases hpast
      obtain ⟨hlifecycle, hnext, hprogress, hmode⟩ :=
        h.lifecycle.stopStep hat hexchanging hstop
      have hothers (u : Tid) (hut : u ≠ t) : m.CallAt (s.calls u) := by
        rcases hprogress with ⟨-, rfl⟩ | hprogress
        · exact h.calls u
        · by_cases hlocking : phase = .locking
          · subst hlocking
            cases hstop
            exact h.calls u
          · apply h.others (t := t) _ _ hut
            · rw [hcall]
              exact decide_eq_true hlocking
            · rcases hmode with hmode | hswapping
              · exact .inl hmode
              · rw [hcall, hswapping]
                exact .inr (.inr rfl)
      refine h.move hmove hlifecycle hnext hothers fun hstopped => ?_
      rcases hprogress with ⟨rfl, rfl⟩ | ⟨next, rfl, hpast⟩ | hended
      · have hother (other : StopPhase) (hother : s.calls t = .stopping other) :
            other.pastExchange = false := by
          rw [hcall] at hother
          cases hother
          rfl
        exact (h.ended hstopped).imp_right (·.update hcalls hother)
      · refine .inr ⟨t, next, ?_, hpast⟩
        rw [hcalls, Function.update_self]
        rfl
      · exact .inl hended

theorem TransportInvariant.step {action : TransportAction Tid Sender} (h : s.TransportInvariant)
    (hs : s.step action = some s') : s'.TransportInvariant := by
  cases action with
  | client action =>
    obtain ⟨hthread, hs⟩ := Option.ite_none_right_eq_some.mp hs
    obtain ⟨client, hclient, rfl⟩ := Option.map_eq_some_iff.mp hs
    have hstep := BridgeClient.threadStep_of_step hthread hclient
    exact h.frame (.client hstep) (h.lifecycle.client hstep)
  | callbackBegin subscription =>
    obtain ⟨hidle, hs⟩ := Option.ite_none_right_eq_some.mp hs
    cases hs
    rw [Bool.and_eq_true, Bool.and_eq_true] at hidle
    exact h.frame (.callbackBegin hidle.1.2) { h.lifecycle with }
  | callbackEnd subscription =>
    obtain ⟨-, hs⟩ := Option.ite_none_right_eq_some.mp hs
    cases hs
    exact h.frame (.setExport id fun _ => rfl) { h.lifecycle with }
  | exportTopic t remoteTopic => exact h.begin hs trivial rfl rfl
  | setup t setup => exact h.begin hs rfl rfl rfl
  | stop t => exact h.begin hs trivial rfl rfl
  | next t failed => exact h.next hs

theorem transportInvariant_of_reachable {options : NetworkBridgeOptions}
    {defaultPublisherId : BitVec 64}
    (h : (transportSystem Tid Sender options defaultPublisherId).Reachable s) :
    s.TransportInvariant := by
  refine TransitionSystem.Reachable.invariant ?_ (fun s a s' _ hs hstep => hs.step hstep) h
  rintro s ⟨client, ⟨bridge, -, rfl⟩, rfl⟩
  refine ⟨fun t => ⟨nofun, nofun⟩, fun t => ⟨nofun, nofun⟩, ?_, fun t => trivial, nofun⟩
  exact ⟨Nat.zero_le 1, rfl, fun _ => rfl, fun _ => ⟨rfl, rfl⟩, fun _ => .inl rfl, nofun, nofun,
    nofun⟩

/-- How the mode moves: from `unconfigured` by a configuring call, back if its thread could not be
created, and to `stopped`. -/
inductive ModeMoves (s s' : BridgeTransport Tid Sender) : Prop
  | same : s'.members.mode = s.members.mode → ModeMoves s s'
  | configured (t : Tid) (setup : TransportSetup Sender) (changed : Bool) :
      s.calls t = .setup setup .setting changed → s.members.mode = .unconfigured →
      s'.members.mode = setup.mode → ModeMoves s s'
  | restored (t : Tid) (setup : TransportSetup Sender) (changed : Bool) :
      s.calls t = .setup setup .restoring changed → s.members.mode = setup.mode →
      s'.members.mode = .unconfigured → s'.members.started = 0 → ModeMoves s s'
  | stopped (t : Tid) : s.calls t = .stopping .swapping → s'.members.mode = .stopped →
      ModeMoves s s'

def StopBegun (s : BridgeTransport Tid Sender) : Prop :=
  s.members.client.stopped = true ∨ ∃ t, s.calls t = .stopping .exchanging

structure StepEffect (s s' : BridgeTransport Tid Sender) : Prop where
  mode : s.ModeMoves s'
  begun : s.StopBegun → s'.StopBegun ∧ s'.members.started = s.members.started
  ended : s.members.Ended →
    s'.members.Ended ∧ s'.members.client.history.handed = s.members.client.history.handed
  returned : s'.members.stopsReturned = s.members.stopsReturned ∨ s'.members.Ended

omit [DecidableEq Tid] [DecidableEq Sender] in
theorem StepEffect.of_client {client : BridgeClient} (h : s.members.client.ThreadStep client) :
    s.StepEffect { s with members := { s.members with client := client } } where
  mode := .same rfl
  begun hbegun := ⟨hbegun.imp_left h.stopped.trans, rfl⟩
  ended hended := ⟨hended.frame (.client h), (h.ended hended.worker).2⟩
  returned := .inl rfl

omit [DecidableEq Tid] [DecidableEq Sender] in
theorem StepEffect.of_export {subscription : ℕ} {state : TransportExport}
    (h : s.members.Frames (s.members.setExport subscription state)) :
    s.StepEffect { s with members := s.members.setExport subscription state } where
  mode := .same rfl
  begun hbegun := ⟨hbegun, rfl⟩
  ended hended := ⟨hended.frame h, rfl⟩
  returned := .inl rfl

omit [DecidableEq Sender] in
theorem StepEffect.of_begin {call : TransportCall Sender} (hs : s.begin t call = some s') :
    s.StepEffect s' := by
  unfold BridgeTransport.begin at hs
  split at hs
  case h_1 hnone =>
    cases hs
    refine ⟨.same rfl, fun hbegun => ⟨hbegun.imp_right ?_, rfl⟩, fun hended => ⟨hended, rfl⟩,
      .inl rfl⟩
    rintro ⟨u, hu⟩
    have hut : u ≠ t := by
      rintro rfl
      rw [hnone] at hu
      cases hu
    exact ⟨u, (Function.update_of_ne hut _ _).trans hu⟩
  case h_2 => cases hs

/-- One step of a call. -/
theorem StepEffect.of_next {failed : Bool} (h : s.TransportInvariant)
    (hs : s.step (.next t failed) = some s') : s.StepEffect s' := by
  obtain ⟨⟨m, call⟩, hstep, hmove⟩ := Option.bind_eq_some_iff.mp hs
  obtain ⟨rfl, hcalls, -, -⟩ := exists_of_move hmove
  have hat := h.calls t
  -- another call of `stop` is still where it was
  have hbegun (hother : s.calls t ≠ .stopping .exchanging)
      (hstopped : s.members.client.stopped = true → s'.members.client.stopped = true) :
      s.StopBegun → s'.StopBegun := by
    refine Or.imp hstopped ?_
    rintro ⟨u, hu⟩
    have hut : u ≠ t := by
      rintro rfl
      exact hother hu
    exact ⟨u, by rw [hcalls, Function.update_of_ne hut, hu]⟩
  cases hcall : s.calls t with
  | none =>
    rw [hcall] at hstep
    cases hstep
  | exporting remoteTopic phase =>
    rw [hcall] at hstep hat
    obtain ⟨⟨after, phase'⟩, hexport, heq⟩ := Option.map_eq_some_iff.mp hstep
    cases heq
    obtain ⟨hframe, -, -⟩ := h.lifecycle.exportStep hat hexport
    obtain ⟨hlasts, hstarted⟩ := TransportMembers.exportStep_lasts (s.calls t) hexport
    exact ⟨.same hframe.mode,
      fun hb => ⟨hbegun (by rw [hcall]; nofun) hlasts.stopped hb, hstarted⟩,
      fun hended => ⟨hended.frame hframe, congrArg _ hlasts.history⟩,
      .inl (hlasts.returned.resolve_right (by rw [hcall]; nofun))⟩
  | setup setup phase changed =>
    rw [hcall] at hstep hat
    obtain ⟨hexcludes, -, -⟩ := h.lifecycle.setupStep hat hstep
    obtain ⟨⟨after, status⟩, hsetup, heq⟩ := Option.map_eq_some_iff.mp hstep
    have hkept : s'.members.mode = after.mode ∧ s'.members.started = after.started ∧
        s'.members.client = after.client ∧ s'.members.stopsReturned = after.stopsReturned := by
      have hmembers : _ = s'.members := congrArg Prod.fst heq
      cases status <;> rw [← hmembers] <;> exact ⟨rfl, rfl, rfl, rfl⟩
    obtain ⟨hmode, hstarted, hclient, hreturned⟩ := hkept
    obtain ⟨hlasts, heffect⟩ := TransportMembers.setupStep_effect (s.calls t) hsetup
    have hhistory : s'.members.client.history = s.members.client.history :=
      hclient ▸ hlasts.history
    have hstopped (hstopped : s.members.client.stopped = true) :
        s'.members.client.stopped = true := hclient ▸ hlasts.stopped hstopped
    refine ⟨?_, fun hb => ⟨hbegun (by rw [hcall]; nofun) hstopped hb, ?_⟩, fun hended => ⟨?_, ?_⟩,
      .inl (hreturned.trans (hlasts.returned.resolve_right (by rw [hcall]; nofun)))⟩
    · cases heffect with
      | none phase hsame => exact .same (hmode.trans hsame)
      | configured hfresh hset =>
        exact .configured t setup changed hcall hfresh (hmode.trans hset)
      | started hsame => exact .same (hmode.trans hsame)
      | restored hset hsame =>
        obtain ⟨hzero, hbefore, -⟩ := hat
        exact .restored t setup changed hcall hbefore (hmode.trans hset)
          (hstarted.trans (hsame.trans hzero))
    · cases heffect with
      | none phase _ hsame => exact hstarted.trans hsame
      | configured _ _ hsame => exact hstarted.trans hsame
      | restored _ hsame => exact hstarted.trans hsame
      | started =>
        -- the call has the mutex, and found `stopped_` unset
        exfalso
        obtain ⟨-, -, hunset⟩ := hat
        rcases hb with hset | ⟨u, hu⟩
        · rw [hunset] at hset
          cases hset
        · have hut : u = t := by
            apply h.stopMutex.eq
            · rw [hu]
              rfl
            · rw [hcall]
              rfl
          rw [hut, hcall] at hu
          cases hu
    · rcases hexcludes with hframe | ⟨-, hunset, -⟩
      · exact hended.frame hframe
      · rw [hstopped hended.stopped] at hunset
        cases hunset
    · exact congrArg _ hhistory
  | stopping phase =>
    rw [hcall] at hstep hat
    cases failed with
    | true => cases hstep
    | false =>
      obtain ⟨⟨after, phase'⟩, hstop, heq⟩ := Option.map_eq_some_iff.mp hstep
      cases heq
      obtain ⟨hlasts, hstarted, hmode, hended⟩ := TransportMembers.stopStep_lasts hstop
      refine ⟨?_, fun hb => ⟨?_, hstarted⟩, fun hdone => ⟨hended hdone hat, congrArg _ hlasts.history⟩,
        ?_⟩
      · rcases hmode with hsame | ⟨rfl, hset⟩
        · exact .same hsame
        · exact .stopped t hcall hset
      · by_cases hexchanging : phase = .exchanging
        · subst hexchanging
          have hmembers : _ = s'.members := congrArg Prod.fst (Option.some.inj hstop)
          rw [StopBegun, ← hmembers]
          exact .inl rfl
        · apply hbegun _ hlasts.stopped hb
          rw [hcall]
          intro heq
          cases heq
          exact hexchanging rfl
      · rcases hlasts.returned with hsame | hunlocking
        · exact .inl hsame
        · cases hunlocking
          exact .inr (hended hat hat)

theorem stepEffect_of_step {action : TransportAction Tid Sender} (h : s.TransportInvariant)
    (hs : s.step action = some s') : s.StepEffect s' := by
  cases action with
  | client action =>
    obtain ⟨hthread, hs⟩ := Option.ite_none_right_eq_some.mp hs
    obtain ⟨client, hclient, rfl⟩ := Option.map_eq_some_iff.mp hs
    exact .of_client (BridgeClient.threadStep_of_step hthread hclient)
  | callbackBegin subscription =>
    obtain ⟨hidle, hs⟩ := Option.ite_none_right_eq_some.mp hs
    cases hs
    rw [Bool.and_eq_true, Bool.and_eq_true] at hidle
    exact .of_export (.callbackBegin hidle.1.2)
  | callbackEnd subscription =>
    obtain ⟨-, hs⟩ := Option.ite_none_right_eq_some.mp hs
    cases hs
    exact .of_export (.setExport id fun _ => rfl)
  | exportTopic t remoteTopic => exact .of_begin hs
  | setup t setup => exact .of_begin hs
  | stop t => exact .of_begin hs
  | next t failed => exact .of_next h hs

/-- What a call of `stop` leaves behind stays so. -/
theorem ended_of_leads {options : NetworkBridgeOptions} {defaultPublisherId : BitVec 64}
    (h : (transportSystem Tid Sender options defaultPublisherId).Reachable s)
    (hended : s.members.Ended)
    (hleads : (transportSystem Tid Sender options defaultPublisherId).Leads s s') :
    s'.members.Ended ∧ s'.members.client.history.handed = s.members.client.history.handed := by
  have hlasts : s'.TransportInvariant ∧ s'.members.Ended ∧
      s'.members.client.history.handed = s.members.client.history.handed := by
    refine hleads.invariant (P := fun u => u.TransportInvariant ∧ u.members.Ended ∧
      u.members.client.history.handed = s.members.client.history.handed)
      (fun u action u' hu hstep => ?_) ⟨transportInvariant_of_reachable h, hended, rfl⟩
    obtain ⟨hinv, hended, hhanded⟩ := hu
    obtain ⟨hended', hsame⟩ := (stepEffect_of_step hinv hstep).ended hended
    exact ⟨hinv.step hstep, hended', hsame.trans hhanded⟩
  exact hlasts.2

/-- Once `stop` has begun no worker is started. -/
theorem started_of_leads {options : NetworkBridgeOptions} {defaultPublisherId : BitVec 64}
    (h : (transportSystem Tid Sender options defaultPublisherId).Reachable s)
    (hbegun : s.StopBegun)
    (hleads : (transportSystem Tid Sender options defaultPublisherId).Leads s s') :
    s'.members.started = s.members.started := by
  have hlasts : s'.TransportInvariant ∧ s'.StopBegun ∧
      s'.members.started = s.members.started := by
    refine hleads.invariant (P := fun u => u.TransportInvariant ∧ u.StopBegun ∧
      u.members.started = s.members.started)
      (fun u action u' hu hstep => ?_) ⟨transportInvariant_of_reachable h, hbegun, rfl⟩
    obtain ⟨hinv, hbegun, hstarted⟩ := hu
    obtain ⟨hbegun', hsame⟩ := (stepEffect_of_step hinv hstep).begun hbegun
    exact ⟨hinv.step hstep, hbegun', hsame.trans hstarted⟩
  exact hlasts.2.2

theorem ended_of_returned {options : NetworkBridgeOptions} {defaultPublisherId : BitVec 64}
    (h : (transportSystem Tid Sender options defaultPublisherId).Reachable s) :
    0 < s.members.stopsReturned → s.members.Ended := by
  refine TransitionSystem.Reachable.invariant (P := fun s => 0 < s.members.stopsReturned →
    s.members.Ended) ?_ (fun u action u' hu hp hstep hpositive => ?_) h
  · rintro s ⟨client, -, rfl⟩ hpositive
    cases hpositive
  · have heffect := stepEffect_of_step (transportInvariant_of_reachable hu) hstep
    rcases heffect.returned with hsame | hended
    · exact (heffect.ended (hp (hsame ▸ hpositive))).1
    · exact hended

/-- The mode of a bridge moves only from `unconfigured` by a configuring call, back if its thread
could not be created, and to `stopped`, where it stays; at most one worker is ever started, never
by an assignment to a joinable thread; a configuring call that throws a `MiddlewareError` has
changed nothing; no worker starts once `stop` has begun; and when a call of `stop` has returned
the worker has ended, every registered export is cancelled without a callback that runs, and no
frame is handed over any more. -/
theorem transport_life {options : NetworkBridgeOptions} {defaultPublisherId : BitVec 64}
    (h : (transportSystem Tid Sender options defaultPublisherId).Reachable s) :
    (∀ action s', s.step action = some s' →
      s.ModeMoves s' ∧ (s.members.mode = .stopped → s'.members.mode = .stopped)) ∧
      s.members.started ≤ 1 ∧ s.members.terminated = false ∧
      (∀ outcome ∈ s.members.outcomes, ∀ error,
        outcome.fault = some (.middleware error) → outcome.changed = false) ∧
      (s.StopBegun →
        ∀ s', (transportSystem Tid Sender options defaultPublisherId).Leads s s' →
          s'.members.started = s.members.started) ∧
      (0 < s.members.stopsReturned →
        ∀ s', (transportSystem Tid Sender options defaultPublisherId).Leads s s' →
          s'.members.Ended ∧
            s'.members.client.history.handed = s.members.client.history.handed) := by
  have hinv := transportInvariant_of_reachable h
  refine ⟨fun action s' hs => ?_, hinv.lifecycle.once, hinv.lifecycle.kept,
    hinv.lifecycle.outcomes, fun hbegun s' => started_of_leads h hbegun,
    fun hreturned s' => ended_of_leads h (ended_of_returned h hreturned)⟩
  have hmoves := (stepEffect_of_step hinv hs).mode
  refine ⟨hmoves, fun hstopped => ?_⟩
  cases hmoves with
  | same hsame => exact hsame.trans hstopped
  | configured t setup changed _ hfresh _ =>
    rw [hstopped] at hfresh
    cases hfresh
  | restored t setup changed _ hbefore _ _ =>
    exact absurd (hbefore.symm.trans hstopped) setup.mode_ne.2
  | stopped t _ hset => exact hset

/-- An empty sender, a thread that could not be created, a client, a second transport, and a call
of `stop` that finds an export callback and the worker at work. -/
theorem transport_life_stopped :
    ∃ s : BridgeTransport Bool Unit,
      s.members.outcomes.map (·.changed) = [false, true, true, false] ∧
        s.members.started = 1 ∧ s.members.Ended ∧
          ∀ s', (transportSystem Bool Unit {} 7).Leads s s' →
            s'.members.started = 1 ∧
              s'.members.client.history.handed = s.members.client.history.handed := by
  let next (n : ℕ) : List (TransportAction Bool Unit) := List.replicate n (.next false false)
  let stopNext (n : ℕ) : List (TransportAction Bool Unit) := List.replicate n (.next true false)
  let work (n : ℕ) : List (TransportAction Bool Unit) :=
    List.replicate n (.client (.worker .next))
  let configuring : List (TransportAction Bool Unit) :=
    .setup false (.manual none) :: next 1 ++
      .setup false (.manual (some ())) :: next 5 ++ .next false true :: next 4 ++
      .exportTopic false [1] :: next 5 ++
      .setup false (.tcpClient "host" {}) :: next 7 ++
      .setup false (.manual (some ())) :: next 6
  let stopping : List (TransportAction Bool Unit) :=
    .callbackBegin 0 :: work 1 ++ .client (.worker .fail) :: .stop true :: stopNext 5 ++
      .callbackEnd 0 :: stopNext 4 ++ work 4 ++ stopNext 2
  obtain ⟨s, hs, hp⟩ := (transportSystem Bool Unit {} 7).exists_reachable_of_run
    { members := { client := { publisherId := 7, outbound := { capacity := 1024 } } } }
    (configuring ++ stopping)
    (fun s => s.members.outcomes.map (·.changed) = [false, true, true, false] &&
      s.members.started = 1 && s.members.client.stopped && 0 < s.members.stopsReturned)
    ⟨_, ⟨_, rfl, rfl⟩, rfl⟩ (by decide +kernel)
  simp only [Bool.and_eq_true, decide_eq_true_iff] at hp
  obtain ⟨⟨⟨houtcomes, hstarted⟩, hstopped⟩, hreturned⟩ := hp
  obtain ⟨-, -, -, -, hbegun, hended⟩ := transport_life hs
  refine ⟨s, houtcomes, hstarted, (hended hreturned s (.refl s)).1, fun s' hleads => ?_⟩
  exact ⟨(hbegun (.inl hstopped) s' hleads).trans hstarted, (hended hreturned s' hleads).2⟩

end BridgeTransport
end RobotMiddleware
