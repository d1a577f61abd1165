import RobotMiddleware.QueueSteps
import RobotMiddleware.BridgeClientModel

/-! The way of a frame through a bridge: `emit_frame` puts it into the outbound queue or counts it
as dropped, the worker takes it out and hands it over. -/
namespace RobotMiddleware

def BridgeWorker.popped : BridgeWorker → List Frame
  | .manual (.popped frame) | .connected _ (.popped _ frame) => [frame]
  | _ => []

/-- How many frames the worker may have taken out of the queue without having counted them as
sent or as an error. An error that comes while the bridge is stopping is not counted, and ends
the loop. -/
def BridgeWorker.unsettled (going : Bool) : BridgeWorker → ℕ
  | .manual (.popped _) | .manual (.sending _) => 1
  | .connected _ (.popped _ _) | .connected _ (.sending _ _) | .caught _ => 1
  | .cleaning _ | .deciding _ | .checking | .left => if going then 0 else 1
  | _ => 0

namespace BridgeClient
variable {options : ReconnectOptions} {s s' : BridgeClient}

/-- The frames handed over, apart from the heartbeats. -/
def handedFrames (s : BridgeClient) : List Frame :=
  (s.history.handed.filter (!·.heartbeat)).map HandedFrame.frame

/-- The frames taken out of the queue that are settled, or may go unsettled. -/
def settled (s : BridgeClient) : ℕ :=
  s.framesSent + s.transportErrors + s.worker.unsettled s.going

structure EmitSide where
  accepted : List Frame
  exportedBy : List ℕ
  droppedBy : List ℕ
  emits : ℕ → EmitCall
  emitted : ℕ
  exported : ℕ
  outboundDropped : ℕ

def emitSide (s : BridgeClient) : EmitSide :=
  { accepted := s.history.accepted
    exportedBy := s.history.exportedBy
    droppedBy := s.history.droppedBy
    emits := s.emits
    emitted := s.emitted
    exported := s.exported
    outboundDropped := s.outboundDropped }

inductive WorkerView (s s' : BridgeClient) : Prop
  | take (frame : Frame) (rest : List Frame) :
      s'.emitSide = s.emitSide → s.outbound.queue = frame :: rest →
      s'.outbound = { s.outbound with queue := rest } →
      s'.history.taken = s.history.taken ++ [frame] → s'.history.handed = s.history.handed →
      s.worker.popped = [] → s'.worker.popped = [frame] → s.settled + 1 ≤ s'.settled →
      WorkerView s s'
  | hand (frame : Frame) (heartbeat : Bool) :
      s'.emitSide = s.emitSide → s'.outbound = s.outbound → s'.history.taken = s.history.taken →
      s'.history.handed = s.history.handed ++ [⟨frame, heartbeat⟩] →
      s.worker.popped = (if heartbeat then [] else [frame]) → s'.worker.popped = [] →
      s.settled ≤ s'.settled → WorkerView s s'
  | other :
      s'.emitSide = s.emitSide → s'.outbound = s.outbound → s'.history.taken = s.history.taken →
      s'.history.handed = s.history.handed → s'.worker.popped = s.worker.popped →
      s.settled ≤ s'.settled → WorkerView s s'

theorem manualStep_view {phase : ManualPhase} {action : WorkerAction}
    (hworker : s.worker = .manual phase) (hs : s.manualStep phase action = some s') :
    WorkerView s s' := by
  have hsettled : s.settled = s.framesSent + s.transportErrors +
      (BridgeWorker.manual phase).unsettled s.going := by rw [settled, hworker]
  have hpopped : s.worker.popped = (BridgeWorker.manual phase).popped := by rw [hworker]
  cases phase <;> cases action
  case checking.next =>
    cases hs
    refine .other rfl rfl rfl rfl ?_ ?_
    · rw [hpopped]
      show (if s.going then BridgeWorker.manual .popping else .left).popped = _
      split <;> rfl
    · rw [hsettled]
      exact Nat.le_add_right _ _
  case popping.next =>
    simp only [manualStep, ThreadSafeQueue.waitPopFor] at hs
    cases hqueue : s.outbound.queue with
    | nil =>
      rw [hqueue] at hs
      cases hs
      exact .other rfl rfl rfl rfl hpopped.symm hsettled.le
    | cons frame rest =>
      rw [hqueue] at hs
      cases hs
      exact .take frame rest rfl hqueue rfl rfl rfl hpopped rfl
        (Nat.add_le_add_right hsettled.le 1)
  case popping.fail =>
    cases hs
    refine .other rfl rfl rfl rfl hpopped.symm ?_
    rw [hsettled]
    show _ ≤ s.framesSent + (s.transportErrors + 1) + _
    simp [BridgeWorker.unsettled]
    omega
  case popped.next frame =>
    cases hs
    exact .hand frame false rfl rfl rfl rfl hpopped rfl hsettled.le
  case sending.next frame =>
    cases hs
    refine .other rfl rfl rfl rfl hpopped.symm ?_
    rw [hsettled]
    show s.framesSent + s.transportErrors + 1 ≤ s.framesSent + 1 + s.transportErrors + 0
    omega
  case sending.fail frame =>
    cases hs
    exact .other rfl rfl rfl rfl hpopped.symm hsettled.le
  all_goals cases hs

theorem connectionStep_view {connection : ClientConnection} {phase : ConnectionPhase}
    {action : WorkerAction} (hworker : s.worker = .connected connection phase)
    (hs : s.connectionStep options connection phase action = some s') : WorkerView s s' := by
  have hsettled : s.settled = s.framesSent + s.transportErrors +
      (BridgeWorker.connected connection phase).unsettled s.going := by rw [settled, hworker]
  have hpopped : s.worker.popped = (BridgeWorker.connected connection phase).popped := by
    rw [hworker]
  -- an exception that interrupts no sending
  have hcaught (hzero : (BridgeWorker.connected connection phase).unsettled s.going = 0) :
      s.settled ≤ (s.setWorker (.caught (some connection))).settled := by
    rw [hsettled, hzero]
    exact Nat.le_add_right _ 1
  cases phase with
  | checking =>
    cases action with
    | next =>
      cases hs
      refine .other rfl rfl rfl rfl ?_ ?_
      · rw [hpopped]
        show (BridgeWorker.connected connection (if s.going then .batching 0 else .closing)).popped = _
        split <;> rfl
      · rw [hsettled]
        exact Nat.le_add_right _ _
    | _ => cases hs
  | batching sent =>
    cases action with
    | next =>
      simp only [connectionStep, ThreadSafeQueue.tryPop] at hs
      split at hs
      · cases hqueue : s.outbound.queue with
        | nil =>
          rw [hqueue] at hs
          cases hs
          exact .other rfl rfl rfl rfl hpopped.symm hsettled.le
        | cons frame rest =>
          rw [hqueue] at hs
          cases hs
          exact .take frame rest rfl hqueue rfl rfl rfl hpopped rfl
            (Nat.add_le_add_right hsettled.le 1)
      · cases hs
        exact .other rfl rfl rfl rfl hpopped.symm hsettled.le
    | fail =>
      cases hs
      exact .other rfl rfl rfl rfl hpopped.symm (hcaught rfl)
    | _ => cases hs
  | popped sent frame =>
    cases action with
    | next =>
      cases hs
      exact .hand frame false rfl rfl rfl rfl hpopped rfl hsettled.le
    | _ => cases hs
  | sending sent frame =>
    cases action with
    | next =>
      cases hs
      refine .other rfl rfl rfl rfl hpopped.symm ?_
      rw [hsettled]
      show s.framesSent + s.transportErrors + 1 ≤ s.framesSent + 1 + s.transportErrors + 0
      omega
    | fail =>
      cases hs
      exact .other rfl rfl rfl rfl hpopped.symm hsettled.le
    | _ => cases hs
  | receiving =>
    cases action with
    | receive incoming now =>
      obtain ⟨hclock, hs⟩ := Option.ite_none_right_eq_some.mp hs
      cases incoming <;> cases hs <;> exact .other rfl rfl rfl rfl hpopped.symm hsettled.le
    | fail =>
      cases hs
      exact .other rfl rfl rfl rfl hpopped.symm (hcaught rfl)
    | _ => cases hs
  | classifying incoming now =>
    cases action with
    | next =>
      simp only [connectionStep] at hs
      split at hs
      · cases hs
        exact .other rfl rfl rfl rfl hpopped.symm hsettled.le
      · cases hs
        exact .other rfl rfl rfl rfl hpopped.symm hsettled.le
      · cases hs
        exact .other rfl rfl rfl rfl hpopped.symm (hcaught rfl)
    | _ => cases hs
  | delivering incoming now =>
    cases action with
    | next =>
      cases hs
      exact .other rfl rfl rfl rfl hpopped.symm hsettled.le
    | _ => cases hs
  | noticing now =>
    cases action with
    | next =>
      cases hs
      exact .other rfl rfl rfl rfl hpopped.symm hsettled.le
    | _ => cases hs
  | heartbeat now =>
    cases action with
    | next =>
      obtain ⟨-, hs⟩ := Option.ite_none_left_eq_some.mp hs
      cases hs
      exact .other rfl rfl rfl rfl hpopped.symm hsettled.le
    | beat sendTimeNs =>
      obtain ⟨-, hs⟩ := Option.ite_none_right_eq_some.mp hs
      cases hs
      exact .hand _ true rfl rfl rfl rfl hpopped rfl hsettled.le
    | fail =>
      cases hs
      exact .other rfl rfl rfl rfl hpopped.symm (hcaught rfl)
    | _ => cases hs
  | sendingHeartbeat now =>
    cases action with
    | next =>
      cases hs
      exact .other rfl rfl rfl rfl hpopped.symm hsettled.le
    | fail =>
      cases hs
      exact .other rfl rfl rfl rfl hpopped.symm (hcaught rfl)
    | _ => cases hs
  | idle now =>
    cases action with
    | next =>
      simp only [connectionStep] at hs
      split at hs
      · cases hs
        exact .other rfl rfl rfl rfl hpopped.symm (hcaught rfl)
      · cases hs
        exact .other rfl rfl rfl rfl hpopped.symm hsettled.le
    | _ => cases hs
  | closing =>
    cases action with
    | next =>
      cases hs
      refine .other rfl rfl rfl rfl hpopped.symm ?_
      rw [hsettled]
      exact Nat.le_add_right _ _
    | _ => cases hs

theorem workerStep_view {action : WorkerAction} (hs : s.workerStep s.worker action = some s') :
    WorkerView s s' := by
  have hsettled (worker : BridgeWorker) (hworker : s.worker = worker) :
      s.settled = s.framesSent + s.transportErrors + worker.unsettled s.going := by
    rw [settled, hworker]
  cases hworker : s.worker with
  | none =>
    rw [hworker] at hs
    cases action <;> cases hs
  | manual phase =>
    rw [hworker] at hs
    exact manualStep_view hworker hs
  | connected connection phase =>
    rw [hworker] at hs
    obtain ⟨options, -, hs⟩ := Option.bind_eq_some_iff.mp hs
    exact connectionStep_view hworker hs
  | checking =>
    have hpopped : s.worker.popped = [] := by rw [hworker]; rfl
    have hbefore := hsettled _ hworker
    rw [hworker] at hs
    cases action with
    | next =>
      simp only [workerStep] at hs
      split at hs
      case isTrue hgoing =>
        cases hs
        refine .other rfl rfl rfl rfl hpopped.symm ?_
        simp only [BridgeWorker.unsettled, hgoing, if_true] at hbefore
        exact hbefore.le
      case isFalse =>
        cases hs
        exact .other rfl rfl rfl rfl hpopped.symm hbefore.le
    | _ => cases hs
  | connecting =>
    have hpopped : s.worker.popped = [] := by rw [hworker]; rfl
    have hbefore := hsettled _ hworker
    rw [hworker] at hs
    cases action with
    | connect now =>
      simp only [workerStep] at hs
      split at hs
      · obtain ⟨hclock, hs⟩ := Option.ite_none_right_eq_some.mp hs
        cases hs
        exact .other rfl rfl rfl rfl hpopped.symm hbefore.le
      · cases hs
    | fail =>
      cases hs
      refine .other rfl rfl rfl rfl hpopped.symm ?_
      rw [hbefore]
      exact Nat.le_add_right _ 1
    | _ => cases hs
  | caught connection =>
    have hpopped : s.worker.popped = [] := by rw [hworker]; rfl
    have hbefore := hsettled _ hworker
    rw [hworker] at hs
    cases action with
    | next =>
      cases hs
      refine .other rfl rfl rfl rfl hpopped.symm ?_
      -- counted, or the loop is about to end
      rw [hbefore]
      show s.framesSent + s.transportErrors + 1 ≤
        s.framesSent + (if s.going then s.transportErrors + 1 else s.transportErrors) +
          (if s.going then 0 else 1)
      split <;> omega
    | _ => cases hs
  | cleaning connection =>
    have hpopped : s.worker.popped = [] := by rw [hworker]; rfl
    have hbefore := hsettled _ hworker
    rw [hworker] at hs
    cases action with
    | next =>
      cases hs
      exact .other rfl rfl rfl rfl hpopped.symm hbefore.le
    | fail =>
      cases hs
      refine .other rfl rfl rfl rfl hpopped.symm ?_
      rw [hbefore]
      show s.framesSent + s.transportErrors + (if s.going then 0 else 1) ≤
        s.framesSent + (s.transportErrors + 1) + (if s.going then 0 else 1)
      omega
    | _ => cases hs
  | deciding connection =>
    have hpopped : s.worker.popped = [] := by rw [hworker]; rfl
    have hbefore := hsettled _ hworker
    rw [hworker] at hs
    cases action with
    | next =>
      simp only [workerStep] at hs
      split at hs
      case isTrue hgoing =>
        cases hs
        refine .other rfl rfl rfl rfl hpopped.symm ?_
        simp only [BridgeWorker.unsettled, hgoing, if_true] at hbefore
        exact hbefore.le
      case isFalse =>
        cases hs
        exact .other rfl rfl rfl rfl hpopped.symm hbefore.le
    | _ => cases hs
  | waiting =>
    have hpopped : s.worker.popped = [] := by rw [hworker]; rfl
    have hbefore := hsettled _ hworker
    rw [hworker] at hs
    cases action with
    | next =>
      obtain ⟨options, -, hs⟩ := Option.bind_eq_some_iff.mp hs
      split at hs
      · cases hs
        refine .other rfl rfl rfl rfl hpopped.symm ?_
        rw [hbefore]
        exact Nat.le_add_right _ _
      · cases hs
        exact .other rfl rfl rfl rfl hpopped.symm hbefore.le
    | _ => cases hs
  | left =>
    rw [hworker] at hs
    cases action <;> cases hs
  | undefined =>
    rw [hworker] at hs
    cases action <;> cases hs

/-- Every call of `emit_frame` that has returned is in one of the two logs, once, and the
counters count the logs. -/
structure EmitInvariant (s : BridgeClient) : Prop where
  unmade : ∀ call, s.emitted ≤ call → s.emits call = .none
  counted : ∀ call, s.emits call = .returned ↔ call ∈ s.history.exportedBy ++ s.history.droppedBy
  once : (s.history.exportedBy ++ s.history.droppedBy).Nodup
  exported : s.exported = s.history.exportedBy.length
  dropped : s.outboundDropped = s.history.droppedBy.length

/-- The queue of the given depth holds what was accepted and not taken, and all that was taken
was handed over, but for the frame that the worker holds. -/
structure PipelineInvariant (depth : ℕ) (s : BridgeClient) : Prop where
  capacity : s.outbound.capacity = depth
  sized : s.outbound.queue.length ≤ depth
  accepted : s.history.accepted = s.history.taken ++ s.outbound.queue
  taken : s.history.taken = s.handedFrames ++ s.worker.popped
  balance : s.history.taken.length ≤ s.settled

theorem EmitInvariant.congr (h : EmitInvariant s) (hsame : s'.emitSide = s.emitSide) :
    EmitInvariant s' := by
  have hexportedBy := congrArg EmitSide.exportedBy hsame
  have hdroppedBy := congrArg EmitSide.droppedBy hsame
  have hemits := congrArg EmitSide.emits hsame
  have hemitted := congrArg EmitSide.emitted hsame
  have hexported := congrArg EmitSide.exported hsame
  have hdropped := congrArg EmitSide.outboundDropped hsame
  simp only [emitSide] at hexportedBy hdroppedBy hemits hemitted hexported hdropped
  refine ⟨?_, ?_, ?_, ?_, ?_⟩
  · rw [hemits, hemitted]
    exact h.unmade
  · rw [hemits, hexportedBy, hdroppedBy]
    exact h.counted
  · rw [hexportedBy, hdroppedBy]
    exact h.once
  · rw [hexported, hexportedBy]
    exact h.exported
  · rw [hdropped, hdroppedBy]
    exact h.dropped

/-- A call goes on, and is not counted yet. -/
theorem EmitInvariant.move (h : EmitInvariant s) {call : ℕ} {emit : EmitCall}
    (hbefore : s.emits call ≠ .returned) (hafter : emit ≠ .returned) (hcall : call < s'.emitted)
    (hemitted : s.emitted ≤ s'.emitted) (hemits : s'.emits = Function.update s.emits call emit)
    (hexportedBy : s'.history.exportedBy = s.history.exportedBy)
    (hdroppedBy : s'.history.droppedBy = s.history.droppedBy)
    (hexported : s'.exported = s.exported) (hdropped : s'.outboundDropped = s.outboundDropped) :
    EmitInvariant s' := by
  refine ⟨?_, ?_, ?_, ?_, ?_⟩
  · intro c hc
    rw [hemits, Function.update_of_ne (by omega)]
    exact h.unmade c (by omega)
  · intro c
    rw [hexportedBy, hdroppedBy, ← h.counted, hemits]
    rcases eq_or_ne c call with rfl | hne
    · rw [Function.update_self]
      exact iff_of_false hafter hbefore
    · rw [Function.update_of_ne hne]
  · rw [hexportedBy, hdroppedBy]
    exact h.once
  · rw [hexported, hexportedBy]
    exact h.exported
  · rw [hdropped, hdroppedBy]
    exact h.dropped

theorem EmitInvariant.made (h : EmitInvariant s) {call : ℕ} (hcall : s.emits call ≠ .none) :
    call < s.emitted := by
  by_contra hge
  exact hcall (h.unmade call (Nat.le_of_not_lt hge))

/-- The call is counted, in one log. -/
theorem EmitInvariant.count (h : EmitInvariant s) {call : ℕ} {pushed : Bool}
    (hcall : s.emits call = .counting pushed) (hs : s.step (.emitCount call) = some s') :
    EmitInvariant s' := by
  have hnew : call ∉ s.history.exportedBy ++ s.history.droppedBy := by
    rw [← h.counted, hcall]
    nofun
  have hmade : call < s.emitted := h.made (by rw [hcall]; nofun)
  have hunmade (c : ℕ) (hc : s.emitted ≤ c) :
      Function.update s.emits call .returned c = .none := by
    rw [Function.update_of_ne (by omega)]
    exact h.unmade c hc
  have hreturned (c : ℕ) : Function.update s.emits call .returned c = .returned ↔
      c = call ∨ c ∈ s.history.exportedBy ++ s.history.droppedBy := by
    rcases eq_or_ne c call with rfl | hne
    · rw [Function.update_self]
      exact iff_of_true rfl (.inl rfl)
    · rw [Function.update_of_ne hne, h.counted]
      simp only [hne, false_or]
  have hperm (exportedBy droppedBy : List ℕ)
      (hmem : (exportedBy ++ droppedBy).Perm
        (call :: (s.history.exportedBy ++ s.history.droppedBy))) :
      (exportedBy ++ droppedBy).Nodup ∧ ∀ c, Function.update s.emits call .returned c = .returned ↔
        c ∈ exportedBy ++ droppedBy := by
    refine ⟨hmem.nodup_iff.mpr (List.nodup_cons.mpr ⟨hnew, h.once⟩), fun c => ?_⟩
    rw [hreturned, hmem.mem_iff, List.mem_cons]
  simp only [step, hcall] at hs
  cases pushed with
  | true =>
    cases hs
    have hmem : (s.history.exportedBy ++ [call] ++ s.history.droppedBy).Perm
        (call :: (s.history.exportedBy ++ s.history.droppedBy)) := by
      rw [List.append_assoc]
      exact List.perm_middle
    obtain ⟨honce, hcounted⟩ := hperm _ _ hmem
    refine ⟨hunmade, hcounted, honce, ?_, h.dropped⟩
    show s.exported + 1 = (s.history.exportedBy ++ [call]).length
    rw [h.exported, List.length_append, List.length_singleton]
  | false =>
    cases hs
    have hmem : (s.history.exportedBy ++ (s.history.droppedBy ++ [call])).Perm
        (call :: (s.history.exportedBy ++ s.history.droppedBy)) := by
      rw [← List.append_assoc]
      exact List.perm_append_singleton _ _
    obtain ⟨honce, hcounted⟩ := hperm _ _ hmem
    refine ⟨hunmade, hcounted, honce, h.exported, ?_⟩
    show s.outboundDropped + 1 = (s.history.droppedBy ++ [call]).length
    rw [h.dropped, List.length_append, List.length_singleton]

theorem EmitInvariant.step {a : ClientAction} (h : EmitInvariant s) (hs : s.step a = some s') :
    EmitInvariant s' := by
  cases a with
  | setFrameSender =>
    obtain ⟨-, hs⟩ := Option.ite_none_right_eq_some.mp hs
    cases hs
    exact h.congr rfl
  | startTcpClient options =>
    simp only [BridgeClient.step] at hs
    split at hs
    · obtain ⟨-, hs⟩ := Option.ite_none_right_eq_some.mp hs
      cases hs
      exact h.congr rfl
    · cases hs
      exact h
  | emitFrame frame =>
    cases hs
    have hfree := h.unmade s.emitted le_rfl
    refine h.move ?_ ?_ (Nat.lt_succ_self _) (Nat.le_succ _) rfl rfl rfl rfl rfl
    · rw [hfree]
      nofun
    · nofun
  | emitCheck call =>
    simp only [BridgeClient.step] at hs
    split at hs
    case h_1 frame hcall =>
      cases hs
      refine h.move (by rw [hcall]; nofun) ?_ (h.made (by rw [hcall]; nofun)) le_rfl rfl rfl rfl rfl
        rfl
      split <;> nofun
    case h_2 => cases hs
  | emitPush call =>
    simp only [BridgeClient.step] at hs
    split at hs
    case h_1 frame hcall =>
      have hmade : call < s.emitted := h.made (by rw [hcall]; nofun)
      split at hs
      · cases hs
        exact h.move (by rw [hcall]; nofun) (by decide) hmade le_rfl rfl rfl rfl rfl rfl
      · cases hs
        exact h.move (by rw [hcall]; nofun) (by decide) hmade le_rfl rfl rfl rfl rfl rfl
    case h_2 => cases hs
  | emitThrow call =>
    simp only [BridgeClient.step] at hs
    split at hs
    case h_1 frame hcall =>
      cases hs
      exact h.move (by rw [hcall]; nofun) (by decide) (h.made (by rw [hcall]; nofun)) le_rfl rfl rfl
        rfl rfl rfl
    case h_2 => cases hs
  | emitCount call =>
    cases hcall : s.emits call with
    | counting pushed => exact h.count hcall hs
    | _ =>
      simp only [BridgeClient.step, hcall] at hs
      cases hs
  | worker action =>
    cases workerStep_view hs with
    | take frame rest hsame => exact h.congr hsame
    | hand frame heartbeat hsame => exact h.congr hsame
    | other hsame => exact h.congr hsame
  | stop =>
    cases hs
    exact h.congr rfl
  | stopRunning =>
    obtain ⟨-, hs⟩ := Option.ite_none_right_eq_some.mp hs
    cases hs
    exact h.congr rfl
  | close =>
    obtain ⟨-, hs⟩ := Option.ite_none_right_eq_some.mp hs
    cases hs
    exact h.congr rfl

theorem handedFrames_concat {frame : Frame} {heartbeat : Bool}
    (h : s'.history.handed = s.history.handed ++ [⟨frame, heartbeat⟩]) :
    s'.handedFrames = s.handedFrames ++ if heartbeat then [] else [frame] := by
  unfold handedFrames
  rw [h, List.filter_append, List.map_append]
  cases heartbeat <;> rfl

theorem PipelineInvariant.workerStep {depth : ℕ} (h : PipelineInvariant depth s)
    (hview : WorkerView s s') : PipelineInvariant depth s' := by
  cases hview with
  | take frame rest hsame hqueue houtbound htaken hhanded hpopped hpopped' hsettled =>
    have haccepted : s'.history.accepted = s.history.accepted := congrArg EmitSide.accepted hsame
    have hframes : s'.handedFrames = s.handedFrames := by rw [handedFrames, hhanded, handedFrames]
    have hsized := h.sized
    rw [hqueue, List.length_cons] at hsized
    refine ⟨?_, ?_, ?_, ?_, ?_⟩
    · rw [houtbound]
      exact h.capacity
    · rw [houtbound]
      exact Nat.le_of_succ_le hsized
    · rw [haccepted, h.accepted, htaken, houtbound, hqueue, List.append_assoc]
      rfl
    · rw [htaken, hframes, hpopped', h.taken, hpopped, List.append_nil]
    · rw [htaken, List.length_append, List.length_singleton]
      exact (Nat.add_le_add_right h.balance 1).trans hsettled
  | hand frame heartbeat hsame houtbound htaken hhanded hpopped hpopped' hsettled =>
    have haccepted : s'.history.accepted = s.history.accepted := congrArg EmitSide.accepted hsame
    have hframes := handedFrames_concat hhanded
    refine ⟨?_, ?_, ?_, ?_, ?_⟩
    · rw [houtbound]
      exact h.capacity
    · rw [houtbound]
      exact h.sized
    · rw [haccepted, h.accepted, htaken, houtbound]
    · rw [htaken, hframes, hpopped', h.taken, hpopped, List.append_nil]
    · rw [htaken]
      exact h.balance.trans hsettled
  | other hsame houtbound htaken hhanded hpopped hsettled =>
    have haccepted : s'.history.accepted = s.history.accepted := congrArg EmitSide.accepted hsame
    have hframes : s'.handedFrames = s.handedFrames := by rw [handedFrames, hhanded, handedFrames]
    refine ⟨?_, ?_, ?_, ?_, ?_⟩
    · rw [houtbound]
      exact h.capacity
    · rw [houtbound]
      exact h.sized
    · rw [haccepted, h.accepted, htaken, houtbound]
    · rw [htaken, hframes, hpopped, h.taken]
    · rw [htaken]
      exact h.balance.trans hsettled

/-- A step that is not the worker's: it may end the loop, close the queue, or push a frame. -/
theorem PipelineInvariant.congr {depth : ℕ} {pushed : List Frame} (h : PipelineInvariant depth s)
    (hcapacity : s'.outbound.capacity = s.outbound.capacity)
    (hqueue : s'.outbound.queue = s.outbound.queue ++ pushed)
    (hsized : (s.outbound.queue ++ pushed).length ≤ depth)
    (haccepted : s'.history.accepted = s.history.accepted ++ pushed)
    (htaken : s'.history.taken = s.history.taken)
    (hhanded : s'.history.handed = s.history.handed) (hpopped : s'.worker.popped = s.worker.popped)
    (hsettled : s.settled ≤ s'.settled) : PipelineInvariant depth s' := by
  have hframes : s'.handedFrames = s.handedFrames := by rw [handedFrames, hhanded, handedFrames]
  refine ⟨?_, ?_, ?_, ?_, ?_⟩
  · exact hcapacity.trans h.capacity
  · rw [hqueue]
    exact hsized
  · rw [haccepted, h.accepted, htaken, hqueue, List.append_assoc]
  · rw [htaken, hframes, hpopped, h.taken]
  · rw [htaken]
    exact h.balance.trans hsettled

theorem unsettled_le_of_stopping {going going' : Bool} (h : going' = true → going = true)
    (worker : BridgeWorker) : worker.unsettled going ≤ worker.unsettled going' := by
  cases going' with
  | true => rw [h rfl]
  | false =>
    cases going with
    | false => exact le_rfl
    | true =>
      cases worker with
      | manual phase => cases phase <;> simp [BridgeWorker.unsettled]
      | connected connection phase => cases phase <;> simp [BridgeWorker.unsettled]
      | _ => simp [BridgeWorker.unsettled]

theorem PipelineInvariant.step {depth : ℕ} {a : ClientAction} (hdepth : depth ≠ 0)
    (h : PipelineInvariant depth s) (hs : s.step a = some s') : PipelineInvariant depth s' := by
  have hnone : (s.outbound.queue ++ []).length ≤ depth := by
    rw [List.append_nil]
    exact h.sized
  have hqueue := (List.append_nil s.outbound.queue).symm
  have haccepted := (List.append_nil s.history.accepted).symm
  -- a worker that is not started holds no frame, and one that just starts neither
  have hstart (hworker : s.worker = .none) : s.worker.popped = [] ∧
      s.settled = s.framesSent + s.transportErrors := by
    rw [settled, hworker]
    exact ⟨rfl, rfl⟩
  cases a with
  | setFrameSender =>
    obtain ⟨hfree, hs⟩ := Option.ite_none_right_eq_some.mp hs
    simp only [Bool.and_eq_true, decide_eq_true_eq] at hfree
    obtain ⟨hpopped, hsettled⟩ := hstart hfree.2
    cases hs
    exact h.congr rfl hqueue hnone haccepted rfl rfl hpopped.symm hsettled.le
  | startTcpClient options =>
    simp only [BridgeClient.step] at hs
    split at hs
    · obtain ⟨hfree, hs⟩ := Option.ite_none_right_eq_some.mp hs
      simp only [Bool.and_eq_true, decide_eq_true_eq] at hfree
      obtain ⟨hpopped, hsettled⟩ := hstart hfree.2
      cases hs
      exact h.congr rfl hqueue hnone haccepted rfl rfl hpopped.symm
        (hsettled.le.trans (Nat.le_add_right _ _))
    · cases hs
      exact h
  | emitFrame frame =>
    cases hs
    exact h.congr rfl hqueue hnone haccepted rfl rfl rfl le_rfl
  | emitCheck call =>
    simp only [BridgeClient.step] at hs
    split at hs <;> cases hs
    exact h.congr rfl hqueue hnone haccepted rfl rfl rfl le_rfl
  | emitPush call =>
    simp only [BridgeClient.step] at hs
    split at hs
    case h_1 frame hcall =>
      split at hs
      case h_1 outbound hpush =>
        cases hs
        obtain ⟨hopen, hpushed⟩ := Option.ite_none_left_eq_some.mp hpush
        simp only [Bool.or_eq_true, not_or, Bool.not_eq_true] at hopen
        have hroom : s.outbound.queue.length < depth := by
          rw [← h.capacity]
          exact ThreadSafeQueue.length_lt_of_not_full hopen.2 (h.capacity ▸ hdepth)
        cases hpushed
        refine h.congr rfl rfl ?_ rfl rfl rfl rfl le_rfl
        rw [List.length_append, List.length_singleton]
        exact hroom
      case h_2 =>
        cases hs
        exact h.congr rfl hqueue hnone haccepted rfl rfl rfl le_rfl
    case h_2 => cases hs
  | emitThrow call =>
    simp only [BridgeClient.step] at hs
    split at hs <;> cases hs
    exact h.congr rfl hqueue hnone haccepted rfl rfl rfl le_rfl
  | emitCount call =>
    simp only [BridgeClient.step] at hs
    split at hs <;> cases hs <;> exact h.congr rfl hqueue hnone haccepted rfl rfl rfl le_rfl
  | worker action => exact h.workerStep (workerStep_view hs)
  | stop =>
    cases hs
    refine h.congr rfl hqueue hnone haccepted rfl rfl rfl ?_
    exact Nat.add_le_add_left (unsettled_le_of_stopping (by simp [going]) _) _
  | stopRunning =>
    obtain ⟨-, hs⟩ := Option.ite_none_right_eq_some.mp hs
    cases hs
    refine h.congr rfl hqueue hnone haccepted rfl rfl rfl ?_
    exact Nat.add_le_add_left (unsettled_le_of_stopping (by simp [going]) _) _
  | close =>
    obtain ⟨-, hs⟩ := Option.ite_none_right_eq_some.mp hs
    cases hs
    exact h.congr rfl hqueue hnone haccepted rfl rfl rfl le_rfl

theorem unsettled_le_one (going : Bool) (worker : BridgeWorker) : worker.unsettled going ≤ 1 := by
  unfold BridgeWorker.unsettled
  split <;> first | omega | (split <;> omega)

section Runs
variable {bridgeOptions : NetworkBridgeOptions} {defaultPublisherId : BitVec 64}

theorem create_capacity {bridge : BridgeExport}
    (h : BridgeExport.create bridgeOptions defaultPublisherId = .ok bridge) :
    bridgeOptions.outboundQueueDepth ≠ 0 ∧
      bridge.outboundQueueDepth = bridgeOptions.outboundQueueDepth := by
  unfold BridgeExport.create at h
  split at h
  case isTrue => cases h
  case isFalse hpositive =>
    cases h
    exact ⟨fun hzero => hpositive (.inl hzero), rfl⟩

theorem emitInvariant_of_reachable
    (h : (clientSystem bridgeOptions defaultPublisherId).Reachable s) : EmitInvariant s := by
  refine TransitionSystem.Reachable.invariant ?_ ?_ h
  · rintro s ⟨bridge, -, rfl⟩
    exact ⟨fun _ _ => rfl, fun call => iff_of_false nofun nofun, .nil, rfl, rfl⟩
  · intro s a s' _ ih hs
    exact ih.step hs

theorem pipelineInvariant_of_reachable
    (h : (clientSystem bridgeOptions defaultPublisherId).Reachable s) :
    bridgeOptions.outboundQueueDepth ≠ 0 ∧
      PipelineInvariant bridgeOptions.outboundQueueDepth s := by
  refine TransitionSystem.Reachable.invariant
    (P := fun s => bridgeOptions.outboundQueueDepth ≠ 0 ∧
      PipelineInvariant bridgeOptions.outboundQueueDepth s) ?_ ?_ h
  · rintro s ⟨bridge, hcreate, rfl⟩
    obtain ⟨hdepth, hcapacity⟩ := create_capacity hcreate
    exact ⟨hdepth, hcapacity, Nat.zero_le _, rfl, rfl, Nat.zero_le _⟩
  · rintro s a s' - ⟨hdepth, ih⟩ hs
    exact ⟨hdepth, ih.step hdepth hs⟩

/-- Whatever the callbacks, the connection and `stop` do: every completed call of `emit_frame` is
counted once, as exported or as dropped; the frames handed over, the heartbeats of `client_loop`
apart, are the first of those that the queue accepted, in order and each once; the queue keeps
to its depth; and a frame that was taken out of it and not sent was counted as an error, but for
one. -/
theorem export_pipeline (h : (clientSystem bridgeOptions defaultPublisherId).Reachable s) :
    (∀ call, (s.history.exportedBy ++ s.history.droppedBy).count call =
      if s.emits call = .returned then 1 else 0) ∧
      s.exported = s.history.exportedBy.length ∧
      s.outboundDropped = s.history.droppedBy.length ∧
      s.handedFrames <+: s.history.accepted ∧
      s.outbound.queue.length ≤ bridgeOptions.outboundQueueDepth ∧
      s.history.accepted = s.history.taken ++ s.outbound.queue ∧
      s.history.taken.length ≤ s.framesSent + s.transportErrors + 1 := by
  have hemit := emitInvariant_of_reachable h
  obtain ⟨-, hpipeline⟩ := pipelineInvariant_of_reachable h
  refine ⟨?_, hemit.exported, hemit.dropped, ?_, hpipeline.sized, hpipeline.accepted, ?_⟩
  · intro call
    split
    case isTrue hreturned =>
      exact List.count_eq_one_of_mem hemit.once ((hemit.counted call).mp hreturned)
    case isFalse hrunning =>
      exact List.count_eq_zero_of_not_mem fun hmem => hrunning ((hemit.counted call).mpr hmem)
  · refine ⟨s.worker.popped ++ s.outbound.queue, ?_⟩
    rw [← List.append_assoc, ← hpipeline.taken, ← hpipeline.accepted]
  · calc s.history.taken.length
        ≤ s.settled := hpipeline.balance
      _ ≤ s.framesSent + s.transportErrors + 1 :=
        Nat.add_le_add_left (unsettled_le_one _ _) _

/-- A frame is lost with its connection and an error is counted; the next frame goes out on the
next connection, after a heartbeat. -/
theorem export_pipeline_reconnect :
    ∃ s : BridgeClient, s.history.handed =
        [⟨{ sequence := 1 }, false⟩, ⟨makeHeartbeatFrame 7 0 3, true⟩, ⟨{ sequence := 2 }, false⟩] ∧
      s.history.accepted = [{ sequence := 1 }, { sequence := 2 }] ∧
      s.handedFrames <+: s.history.accepted ∧
      s.history.taken.length ≤ s.framesSent + s.transportErrors + 1 := by
  let emit (call : ℕ) (frame : Frame) : List ClientAction :=
    [.emitFrame frame, .emitCheck call, .emitPush call, .emitCount call]
  let connect (now : ℤ) : List ClientAction := [.worker .next, .worker (.connect now), .worker .next]
  let send : List ClientAction := [.worker .next, .worker .next]
  let retry : List ClientAction := [.worker .fail, .worker .next, .worker .next, .worker .next,
    .worker .next]
  let idle (now : ℤ) : List ClientAction := [.worker .next, .worker (.receive none now),
    .worker (.beat 3), .worker .next, .worker .next, .worker .next]
  obtain ⟨s, hs, hp⟩ := (clientSystem {} 7).exists_reachable_of_run
    { publisherId := 7, outbound := { capacity := 1024 } }
    (.startTcpClient {} :: (emit 0 { sequence := 1 } ++ connect 1 ++ send ++ retry ++ connect 2 ++
      idle 250000002 ++ emit 1 { sequence := 2 } ++ send ++ [.worker .next]))
    (fun s => s.history.handed ==
        [⟨{ sequence := 1 }, false⟩, ⟨makeHeartbeatFrame 7 0 3, true⟩, ⟨{ sequence := 2 }, false⟩] &&
      s.history.accepted == [{ sequence := 1 }, { sequence := 2 }])
    ⟨_, rfl, rfl⟩ (by decide +kernel)
  simp only [Bool.and_eq_true, beq_iff_eq] at hp
  obtain ⟨-, -, -, hprefix, -, -, hbalance⟩ := export_pipeline hs
  exact ⟨s, hp.1, hp.2, hprefix, hbalance⟩

/-- With its heartbeats counted in, what `client_loop` hands to `send_frame` is no part of what
the queue accepted. -/
theorem handed_heartbeat :
    ∃ s : BridgeClient, (clientSystem {} 7).Reachable s ∧
      ¬ s.history.handed.map HandedFrame.frame <+: s.history.accepted := by
  obtain ⟨s, hs, hp⟩ := (clientSystem {} 7).exists_reachable_of_run
    { publisherId := 7, outbound := { capacity := 1024 } }
    [.startTcpClient {}, .worker .next, .worker (.connect 0), .worker .next, .worker .next,
      .worker (.receive none 250000000), .worker (.beat 3)]
    (fun s => s.history.handed == [⟨makeHeartbeatFrame 7 0 3, true⟩] && s.history.accepted == [])
    ⟨_, rfl, rfl⟩ (by decide +kernel)
  simp only [Bool.and_eq_true, beq_iff_eq] at hp
  refine ⟨s, hs, ?_⟩
  rw [hp.1, hp.2, List.prefix_nil]
  nofun

end Runs
end BridgeClient
end RobotMiddleware
