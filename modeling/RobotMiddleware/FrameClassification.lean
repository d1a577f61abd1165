import RobotMiddleware.BridgeClientModel

/-! The tests on the flags of an incoming frame. They are written three times: in
`NetworkBridge::receive_frame`, in `client_loop` and in the session loop of
`TcpSessionManager`. -/
namespace RobotMiddleware

inductive SessionFrame
  | heartbeat
  | handle
  deriving DecidableEq, Repr

/-- The tests of `session_loop` on an incoming frame. Both errors are counted in
`protocol_errors` before they are thrown. -/
def sessionFrame (frame : Frame) : Except Fault SessionFrame :=
  if hasHeartbeatFlag frame then
    if !isHeartbeatFrame frame then .error (.transportError "malformed TCP heartbeat frame")
    else .ok .heartbeat
  else if frame.flags ≠ 0 then .error (.transportError "TCP frame uses unsupported flags")
  else .ok .handle

section Classification
variable {frame : Frame}

theorem isHeartbeatFrame_iff : isHeartbeatFrame frame = true ↔
    frame.flags = 1 ∧ frame.topic = kHeartbeatTopic ∧ frame.typeId = 0 ∧
      frame.schemaHash = 0 ∧ frame.payload = [] := by
  unfold isHeartbeatFrame
  exact decide_eq_true_iff

/-- The strict test implies the loose one that stands before it. -/
theorem hasHeartbeatFlag_of_isHeartbeatFrame (h : isHeartbeatFrame frame = true) :
    hasHeartbeatFlag frame = true := by
  have hflags : frame.flags = 1 := (isHeartbeatFrame_iff.mp h).1
  rw [hasHeartbeatFlag, hflags]
  decide

theorem hasHeartbeatFlag_of_flags_eq_zero (h : frame.flags = 0) :
    hasHeartbeatFlag frame = false := by
  rw [hasHeartbeatFlag, h]
  decide

theorem classify_eq_heartbeat_iff :
    classify frame = .heartbeat ↔ isHeartbeatFrame frame = true := by
  constructor
  · intro h
    unfold classify at h
    split at h
    · split at h
      case isTrue hheartbeat => exact hheartbeat
      case isFalse => cases h
    · split at h <;> cases h
  · intro h
    rw [classify, if_pos (hasHeartbeatFlag_of_isHeartbeatFrame h), if_pos h]

theorem classify_eq_business_iff : classify frame = .business ↔ frame.flags = 0 := by
  constructor
  · intro h
    unfold classify at h
    split at h
    · split at h <;> cases h
    · split at h
      case isTrue => cases h
      case isFalse hflags => exact not_not.mp hflags
  · intro h
    have hflag := hasHeartbeatFlag_of_flags_eq_zero h
    rw [classify, hflag, if_neg Bool.false_ne_true, if_neg (not_not.mpr h)]

theorem classify_eq_protocolError_iff : classify frame = .protocolError ↔
    isHeartbeatFrame frame = false ∧ frame.flags ≠ 0 := by
  have hheartbeat : classify frame = .heartbeat ↔ isHeartbeatFrame frame = true :=
    classify_eq_heartbeat_iff
  have hbusiness : classify frame = .business ↔ frame.flags = 0 := classify_eq_business_iff
  rw [← Bool.not_eq_true, ← hheartbeat, ne_eq, ← hbusiness]
  cases classify frame <;> decide

theorem clientFrame_eq_heartbeat_iff :
    clientFrame frame = .ok .heartbeat ↔ classify frame = .heartbeat := by
  unfold clientFrame classify
  split
  · cases isHeartbeatFrame frame <;> simp
  · split <;> simp

theorem clientFrame_eq_deliver_iff :
    clientFrame frame = .ok .deliver ↔ classify frame = .business := by
  unfold clientFrame classify
  split
  · cases isHeartbeatFrame frame <;> simp
  · split <;> simp

theorem clientFrame_eq_error_iff :
    (∃ fault, clientFrame frame = .error fault) ↔ classify frame = .protocolError := by
  unfold clientFrame classify
  split
  · cases isHeartbeatFrame frame <;> simp
  · split <;> simp

theorem sessionFrame_eq_heartbeat_iff :
    sessionFrame frame = .ok .heartbeat ↔ classify frame = .heartbeat := by
  unfold sessionFrame classify
  split
  · cases isHeartbeatFrame frame <;> simp
  · split <;> simp

theorem sessionFrame_eq_handle_iff :
    sessionFrame frame = .ok .handle ↔ classify frame = .business := by
  unfold sessionFrame classify
  split
  · cases isHeartbeatFrame frame <;> simp
  · split <;> simp

theorem sessionFrame_eq_error_iff :
    (∃ fault, sessionFrame frame = .error fault) ↔ classify frame = .protocolError := by
  unfold sessionFrame classify
  split
  · cases isHeartbeatFrame frame <;> simp
  · split <;> simp

end Classification
end RobotMiddleware
