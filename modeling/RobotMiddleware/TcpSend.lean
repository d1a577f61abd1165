import RobotMiddleware.FrameLayout
import RobotMiddleware.TcpModel

/-! Which bytes a connection puts on the wire when several threads send on it. -/
namespace RobotMiddleware
namespace TcpSender
variable {Tid : Type} {W : SizeT} {limits : FrameLimits W} {s s' : TcpSender Tid}

def IsEncoding (limits : FrameLimits W) (encoded : Bytes) : Prop :=
  ∃ frame, encodeFrame frame limits = .ok encoded

/-- Empty, or the beginning of an encoding without its end. -/
def IsCutEncoding (limits : FrameLimits W) (bytes : Bytes) : Prop :=
  ∃ encoded rest, IsEncoding limits encoded ∧ encoded = bytes ++ rest ∧ rest ≠ []

structure WireInvariant (limits : FrameLimits W) (s : TcpSender Tid) : Prop where
  waiting : ∀ t encoded, s.calls t = .waiting encoded → IsEncoding limits encoded
  sending : ∀ t encoded offset, s.calls t = .sending encoded offset →
    s.sendMutex = some t ∧ IsEncoding limits encoded ∧ offset ≤ encoded.length
  held : ∀ t, s.sendMutex = some t → ∃ encoded offset, s.calls t = .sending encoded offset
  /-- Without a cut the holder of the lock is writing the end of the wire. -/
  whole : s.cut = none → ∃ complete : List Bytes, (∀ b ∈ complete, IsEncoding limits b) ∧
    (s.sendMutex = none → s.wire = complete.flatten) ∧
    ∀ t encoded offset, s.calls t = .sending encoded offset →
      s.wire = complete.flatten ++ encoded.take offset
  /-- After a cut nobody writes. -/
  broken : ∀ wire, s.cut = some wire → s.wire = wire ∧
    (∃ complete : List Bytes, ∃ tail, (∀ b ∈ complete, IsEncoding limits b) ∧
      wire = complete.flatten ++ tail ∧ IsCutEncoding limits tail) ∧
    ∀ t encoded offset, s.calls t = .sending encoded offset → s.shutDown = true ∧ offset = 0

/-- A call that gets the lock finds the connection whole, interrupted or closed. -/
def LockedAfterInterrupt (s : TcpSender Tid) : SendAction Tid → Prop
  | .lock _ => s.cut ≠ none → s.shutDown = true ∨ s.socketOpen = false
  | _ => True

instance (s : TcpSender Tid) : ∀ a, Decidable (LockedAfterInterrupt s a)
  | .lock _ => inferInstanceAs (Decidable (_ → _))
  | .sendFrame _ _ | .send _ _ | .unlock _ | .interrupt _ | .shutdown | .close =>
    inferInstanceAs (Decidable True)

namespace WireInvariant

theorem initial : WireInvariant limits ({} : TcpSender Tid) := by
  refine ⟨by simp, by simp, by simp, ?_, by simp⟩
  intro _
  exact ⟨[], by simp, fun _ => rfl, by simp⟩

/-- One call at a time is sending. -/
theorem holder_unique (h : WireInvariant limits s) {t u : Tid} {encoded encoded' : Bytes}
    {offset offset' : ℕ} (ht : s.calls t = .sending encoded offset)
    (hu : s.calls u = .sending encoded' offset') : u = t := by
  have hmutex := (h.sending t encoded offset ht).1
  rw [(h.sending u encoded' offset' hu).1] at hmutex
  exact Option.some.inj hmutex

/-- Steps outside `send_all`'s locked part write nothing and hand nothing over. -/
theorem frame (h : WireInvariant limits s)
    (hwaiting : ∀ t encoded, s'.calls t = .waiting encoded → IsEncoding limits encoded)
    (hsending : ∀ t encoded offset,
      s'.calls t = .sending encoded offset ↔ s.calls t = .sending encoded offset)
    (hmutex : s'.sendMutex = s.sendMutex) (hwire : s'.wire = s.wire) (hcut : s'.cut = s.cut)
    (hshut : s.shutDown = true → s'.shutDown = true) : WireInvariant limits s' := by
  refine ⟨hwaiting, ?_, ?_, ?_, ?_⟩
  · intro t encoded offset ht
    rw [hmutex]
    exact h.sending t encoded offset ((hsending t encoded offset).mp ht)
  · intro t ht
    obtain ⟨encoded, offset, hcall⟩ := h.held t (hmutex ▸ ht)
    exact ⟨encoded, offset, (hsending t encoded offset).mpr hcall⟩
  · intro hnone
    obtain ⟨complete, hcomplete, hfree, hheld⟩ := h.whole (hcut ▸ hnone)
    rw [hmutex, hwire]
    refine ⟨complete, hcomplete, hfree, ?_⟩
    intro t encoded offset ht
    exact hheld t encoded offset ((hsending t encoded offset).mp ht)
  · intro wire hsome
    obtain ⟨heq, htail, hquiet⟩ := h.broken wire (hcut ▸ hsome)
    refine ⟨hwire.trans heq, htail, ?_⟩
    intro t encoded offset ht
    have hidle := hquiet t encoded offset ((hsending t encoded offset).mp ht)
    exact ⟨hshut hidle.1, hidle.2⟩

end WireInvariant

variable [DecidableEq Tid]

@[simp] theorem setCall_calls (t u : Tid) (call : SendCall) :
    (s.setCall t call).calls u = if u = t then call else s.calls u := by
  by_cases h : u = t
  · subst h
    simp [setCall]
  · simp [setCall, h]

theorem waiting_of_setCall {t u : Tid} {call : SendCall} {encoded : Bytes}
    (hcall : ∀ b, call ≠ .waiting b) (hu : (s.setCall t call).calls u = .waiting encoded) :
    s.calls u = .waiting encoded := by
  rw [setCall_calls] at hu
  split at hu
  case isTrue => exact absurd hu (hcall encoded)
  case isFalse => exact hu

/-- The only sender after `t` has begun, or gone on, to send. -/
theorem sender_of_setCall {t u : Tid} {encoded b : Bytes} {offset n : ℕ}
    (hothers : ∀ u b n, s.calls u = .sending b n → u = t)
    (hu : (s.setCall t (.sending encoded offset)).calls u = .sending b n) :
    u = t ∧ b = encoded ∧ n = offset := by
  rw [setCall_calls] at hu
  split at hu
  case isTrue hut =>
    obtain ⟨hb, hn⟩ := SendCall.sending.inj hu
    exact ⟨hut, hb.symm, hn.symm⟩
  case isFalse hut => exact absurd (hothers u b n hu) hut

inductive StepView (limits : FrameLimits W) (s : TcpSender Tid) :
    SendAction Tid → TcpSender Tid → Prop
  | encoded (t : Tid) (frame : Frame) (encoded : Bytes) : s.calls t = .idle →
      encodeFrame frame limits = .ok encoded →
      StepView limits s (.sendFrame t frame) (s.setCall t (.waiting encoded))
  | refused (t : Tid) (frame : Frame) : s.calls t = .idle →
      StepView limits s (.sendFrame t frame) (s.setCall t .failed)
  | locked (t : Tid) (encoded : Bytes) : s.calls t = .waiting encoded → s.sendMutex = none →
      s.socketOpen = true →
      StepView limits s (.lock t)
        { s.setCall t (.sending encoded 0) with sendMutex := some t }
  | lockThrew (t : Tid) (encoded : Bytes) : s.calls t = .waiting encoded →
      s.sendMutex = none → s.socketOpen = false →
      StepView limits s (.lock t) (s.setCall t .failed)
  | sent (t : Tid) (encoded : Bytes) (offset count : ℕ) : s.calls t = .sending encoded offset →
      0 < count → offset + count ≤ encoded.length → s.shutDown = false →
      StepView limits s (.send t (.sent count))
        { s.setCall t (.sending encoded (offset + count)) with
          wire := s.wire ++ (encoded.drop offset).take count }
  | retried (t : Tid) : StepView limits s (.send t .interrupted) s
  | broke (t : Tid) (encoded : Bytes) (offset : ℕ) (result : SendResult) :
      s.calls t = .sending encoded offset → offset < encoded.length →
      StepView limits s (.send t result) (s.fail t offset)
  | unlocked (t : Tid) (encoded : Bytes) (offset : ℕ) : s.calls t = .sending encoded offset →
      encoded.length ≤ offset →
      StepView limits s (.unlock t) { s.setCall t .idle with sendMutex := none }
  | interrupted (t : Tid) : s.calls t = .failed →
      StepView limits s (.interrupt t)
        { s.setCall t .idle with shutDown := s.shutDown || s.socketOpen }
  | shutdown : StepView limits s .shutdown { s with shutDown := s.shutDown || s.socketOpen }
  | closed : s.sendMutex = none → StepView limits s .close { s with socketOpen := false }

theorem step_view {a : SendAction Tid} (h : s.step limits a = some s') :
    StepView limits s a s' := by
  cases a with
  | sendFrame t frame =>
    simp only [step] at h
    split at h
    case h_1 encoded hcall hencode => cases h; exact .encoded t frame encoded hcall hencode
    case h_2 hcall hencode => cases h; exact .refused t frame hcall
    case h_3 => cases h
  | lock t =>
    simp only [step] at h
    split at h
    case h_1 encoded hcall hfree =>
      split at h
      case isTrue hopen => cases h; exact .locked t encoded hcall hfree hopen
      case isFalse hopen =>
        cases h
        exact .lockThrew t encoded hcall hfree (Bool.eq_false_iff.mpr hopen)
    case h_2 => cases h
  | send t result =>
    simp only [step] at h
    split at h
    case h_2 => cases h
    case h_1 encoded offset hcall =>
      split at h
      case isFalse => cases h
      case isTrue hlt =>
        cases result with
        | sent count =>
          simp only at h
          split at h
          case isFalse => cases h
          case isTrue hguard =>
            obtain ⟨hpos, hle, hopen⟩ := hguard
            cases h
            exact .sent t encoded offset count hcall hpos (by omega) hopen
        | zero => cases h; exact .broke t encoded offset _ hcall hlt
        | interrupted => cases h; exact .retried t
        | error => cases h; exact .broke t encoded offset _ hcall hlt
  | unlock t =>
    simp only [step] at h
    split at h
    case h_2 => cases h
    case h_1 encoded offset hcall =>
      split at h
      case isTrue => cases h
      case isFalse hle => cases h; exact .unlocked t encoded offset hcall (not_lt.mp hle)
  | interrupt t =>
    simp only [step] at h
    split at h
    case h_1 hcall => cases h; exact .interrupted t hcall
    case h_2 => cases h
  | shutdown => cases h; exact .shutdown
  | close =>
    simp only [step] at h
    split at h
    case h_1 hfree => cases h; exact .closed hfree
    case h_2 => cases h

namespace WireInvariant

/-- A call that neither holds nor takes the lock changes its place. -/
theorem setCall (h : WireInvariant limits s) {t : Tid} {call : SendCall} {shutDown : Bool}
    (hold : ∀ encoded offset, s.calls t ≠ .sending encoded offset)
    (hnew : ∀ encoded offset, call ≠ .sending encoded offset)
    (hwaiting : ∀ encoded, call = .waiting encoded → IsEncoding limits encoded)
    (hshut : s.shutDown = true → shutDown = true) :
    WireInvariant limits { s.setCall t call with shutDown := shutDown } := by
  refine h.frame ?_ ?_ rfl rfl rfl hshut
  · intro u encoded hu
    by_cases hut : u = t
    · subst hut
      exact hwaiting encoded (by simpa using hu)
    · exact h.waiting u encoded (by simpa [hut] using hu)
  · intro u encoded offset
    by_cases hut : u = t
    · subst hut
      simp [hold, hnew]
    · simp [hut]

theorem locked (h : WireInvariant limits s) {t : Tid} {encoded : Bytes}
    (hcall : s.calls t = .waiting encoded) (hfree : s.sendMutex = none)
    (hshut : s.cut ≠ none → s.shutDown = true) :
    WireInvariant limits { s.setCall t (.sending encoded 0) with sendMutex := some t } := by
  have hnobody (u : Tid) (b : Bytes) (offset : ℕ) : s.calls u ≠ .sending b offset := by
    intro hu
    have hmutex := (h.sending u b offset hu).1
    rw [hfree] at hmutex
    cases hmutex
  -- the new holder is the only sender, at offset 0
  have honly (u : Tid) (b : Bytes) (offset : ℕ)
      (hu : (s.setCall t (.sending encoded 0)).calls u = .sending b offset) :
      u = t ∧ b = encoded ∧ offset = 0 :=
    sender_of_setCall (fun u b n hsending => absurd hsending (hnobody u b n)) hu
  refine ⟨?_, ?_, ?_, ?_, ?_⟩
  · intro u b hu
    exact h.waiting u b (waiting_of_setCall (by simp) hu)
  · intro u b offset hu
    obtain ⟨rfl, rfl, rfl⟩ := honly u b offset hu
    exact ⟨rfl, h.waiting u b hcall, Nat.zero_le _⟩
  · intro u hu
    obtain rfl : t = u := Option.some.inj hu
    exact ⟨encoded, 0, by simp⟩
  · intro hnone
    obtain ⟨complete, hcomplete, hwhole, -⟩ := h.whole hnone
    refine ⟨complete, hcomplete, ?_, ?_⟩
    · intro hmutex
      cases hmutex
    · intro u b offset hu
      obtain ⟨-, -, rfl⟩ := honly u b offset hu
      rw [List.take_zero, List.append_nil]
      exact hwhole hfree
  · intro wire hsome
    obtain ⟨heq, htail, -⟩ := h.broken wire hsome
    refine ⟨heq, htail, ?_⟩
    intro u b offset hu
    have hcut : s.cut = some wire := hsome
    refine ⟨hshut ?_, (honly u b offset hu).2.2⟩
    rw [hcut]
    simp

theorem sent (h : WireInvariant limits s) {t : Tid} {encoded : Bytes} {offset count : ℕ}
    (hcall : s.calls t = .sending encoded offset) (hle : offset + count ≤ encoded.length)
    (hopen : s.shutDown = false) :
    WireInvariant limits { s.setCall t (.sending encoded (offset + count)) with
      wire := s.wire ++ (encoded.drop offset).take count } := by
  obtain ⟨hmutex, hencoding, -⟩ := h.sending t encoded offset hcall
  -- somebody writes, so the connection has not been cut
  have hcut : s.cut = none := by
    cases hcut : s.cut with
    | none => rfl
    | some wire =>
      have hshut := ((h.broken wire hcut).2.2 t encoded offset hcall).1
      rw [hopen] at hshut
      cases hshut
  have honly (u : Tid) (b : Bytes) (offset' : ℕ)
      (hu : (s.setCall t (.sending encoded (offset + count))).calls u = .sending b offset') :
      u = t ∧ b = encoded ∧ offset' = offset + count :=
    sender_of_setCall (fun _ _ _ hsending => h.holder_unique hcall hsending) hu
  refine ⟨?_, ?_, ?_, ?_, ?_⟩
  · intro u b hu
    exact h.waiting u b (waiting_of_setCall (by simp) hu)
  · intro u b offset' hu
    obtain ⟨rfl, rfl, rfl⟩ := honly u b offset' hu
    exact ⟨hmutex, hencoding, hle⟩
  · intro u hu
    obtain rfl : t = u := Option.some.inj (hmutex.symm.trans hu)
    exact ⟨encoded, offset + count, by simp⟩
  · intro _
    obtain ⟨complete, hcomplete, -, hwhole⟩ := h.whole hcut
    refine ⟨complete, hcomplete, ?_, ?_⟩
    · intro hnone
      exact absurd (hmutex.symm.trans hnone) (by simp)
    · intro u b offset' hu
      obtain ⟨rfl, rfl, rfl⟩ := honly u b offset' hu
      have hwire : s.wire ++ (b.drop offset).take count =
          complete.flatten ++ b.take (offset + count) := by
        rw [hwhole u b offset hcall, List.append_assoc, List.take_add]
      exact hwire
  · intro wire hsome
    exact absurd (hcut.symm.trans hsome) (by simp)

/-- The holder leaves the loop, and nobody is sending any more. -/
theorem released (h : WireInvariant limits s) {t : Tid} {encoded : Bytes} {offset : ℕ}
    {call : SendCall} {cut : Option Bytes} (hcall : s.calls t = .sending encoded offset)
    (hidle : ∀ b, call ≠ .waiting b) (hidle' : ∀ b n, call ≠ .sending b n)
    (hwhole : cut = none → s.cut = none ∧ (encoded.length ≤ offset ∨ offset = 0))
    (hbroken : ∀ wire, cut = some wire → s.cut = some wire ∨
      s.cut = none ∧ wire = s.wire ∧ 0 < offset ∧ offset < encoded.length) :
    WireInvariant limits { s.setCall t call with sendMutex := none, cut := cut } := by
  obtain ⟨-, hencoding, -⟩ := h.sending t encoded offset hcall
  have hnobody (u : Tid) (b : Bytes) (n : ℕ) :
      (s.setCall t call).calls u ≠ .sending b n := by
    intro hu
    by_cases hut : u = t
    · subst hut
      exact hidle' b n (by simpa using hu)
    · simp only [setCall_calls, hut, ↓reduceIte] at hu
      exact hut (h.holder_unique hcall hu)
  refine ⟨?_, ?_, ?_, ?_, ?_⟩
  · intro u b hu
    exact h.waiting u b (waiting_of_setCall hidle hu)
  · intro u b n hu
    exact absurd hu (hnobody u b n)
  · intro u hu
    cases hu
  · intro hnone
    obtain ⟨hcut, hdone⟩ := hwhole hnone
    obtain ⟨complete, hcomplete, -, hheld⟩ := h.whole hcut
    have hwire := hheld t encoded offset hcall
    rcases hdone with hdone | rfl
    · refine ⟨complete ++ [encoded], ?_, ?_, ?_⟩
      · intro b hb
        rcases List.mem_append.mp hb with hb | hb
        · exact hcomplete b hb
        · exact List.mem_singleton.mp hb ▸ hencoding
      · intro _
        have hend : s.wire = (complete ++ [encoded]).flatten := by
          rw [hwire, List.take_of_length_le hdone]
          simp
        exact hend
      · intro u b n hu
        exact absurd hu (hnobody u b n)
    · refine ⟨complete, hcomplete, ?_, ?_⟩
      · intro _
        rw [List.take_zero, List.append_nil] at hwire
        exact hwire
      · intro u b n hu
        exact absurd hu (hnobody u b n)
  · intro wire hsome
    rcases hbroken wire hsome with hcut | ⟨hcut, rfl, hpos, hlt⟩
    · obtain ⟨heq, htail, -⟩ := h.broken wire hcut
      exact ⟨heq, htail, fun u b n hu => absurd hu (hnobody u b n)⟩
    · -- this is the call that cuts the wire
      obtain ⟨complete, hcomplete, -, hheld⟩ := h.whole hcut
      refine ⟨rfl, ⟨complete, encoded.take offset, hcomplete, hheld t encoded offset hcall, ?_⟩,
        fun u b n hu => absurd hu (hnobody u b n)⟩
      refine ⟨encoded, encoded.drop offset, hencoding, (List.take_append_drop _ _).symm, ?_⟩
      intro hnil
      have hlength := List.drop_eq_nil_iff.mp hnil
      omega

theorem step {a : SendAction Tid} (h : WireInvariant limits s)
    (hok : LockedAfterInterrupt s a) (hs : s.step limits a = some s') :
    WireInvariant limits s' := by
  cases step_view hs with
  | encoded t frame encoded hcall hencode =>
    apply h.setCall (by simp [hcall]) (by simp) _ id
    intro b hb
    obtain rfl := SendCall.waiting.inj hb
    exact ⟨frame, hencode⟩
  | refused t frame hcall => exact h.setCall (by simp [hcall]) (by simp) (by simp) id
  | locked t encoded hcall hfree hopen =>
    apply h.locked hcall hfree
    intro hcut
    rcases hok hcut with hshut | hclosed
    · exact hshut
    · rw [hopen] at hclosed
      cases hclosed
  | lockThrew t encoded hcall hfree hclosed =>
    exact h.setCall (by simp [hcall]) (by simp) (by simp) id
  | sent t encoded offset count hcall hpos hle hopen => exact h.sent hcall hle hopen
  | retried t => exact h
  | broke t encoded offset result hcall hlt =>
    apply h.released hcall (by simp) (by simp)
    · intro hnone
      split at hnone
      case isTrue => cases hnone
      case isFalse hzero => exact ⟨hnone, .inr (by omega)⟩
    · intro wire hsome
      split at hsome
      case isFalse => exact .inl hsome
      case isTrue hpos =>
        cases hcut : s.cut with
        | some before =>
          have hzero := ((h.broken before hcut).2.2 t encoded offset hcall).2
          omega
        | none =>
          rw [hcut] at hsome
          exact .inr ⟨rfl, (Option.some.inj hsome).symm, hpos, hlt⟩
  | unlocked t encoded offset hcall hle =>
    apply h.released hcall (by simp) (by simp)
    · intro hnone
      exact ⟨hnone, .inl hle⟩
    · intro wire hsome
      exact .inl hsome
  | interrupted t hcall =>
    apply h.setCall (by simp [hcall]) (by simp) (by simp)
    intro hshut
    rw [hshut, Bool.true_or]
  | shutdown =>
    refine h.frame h.waiting (fun _ _ _ => Iff.rfl) rfl rfl rfl ?_
    intro hshut
    rw [hshut, Bool.true_or]
  | closed hfree => exact h.frame h.waiting (fun _ _ _ => Iff.rfl) rfl rfl rfl id

end WireInvariant

structure WholeFrames (limits : FrameLimits W) (s : TcpSender Tid) : Prop where
  /-- Complete encodings, and at most one that has not been finished. -/
  frames : ∃ complete : List Bytes, ∃ tail, (∀ b ∈ complete, IsEncoding limits b) ∧
    s.wire = complete.flatten ++ tail ∧ (tail = [] ∨ IsCutEncoding limits tail)
  /-- No byte follows the part of a frame that a failed call has left. -/
  quiet : ∀ wire, s.cut = some wire → s.wire = wire

omit [DecidableEq Tid] in
theorem WireInvariant.wholeFrames (h : WireInvariant limits s) : WholeFrames limits s := by
  refine ⟨?_, fun wire hcut => (h.broken wire hcut).1⟩
  cases hcut : s.cut with
  | some wire =>
    obtain ⟨heq, ⟨complete, tail, hcomplete, hwire, htail⟩, -⟩ := h.broken wire hcut
    exact ⟨complete, tail, hcomplete, heq.trans hwire, .inr htail⟩
  | none =>
    obtain ⟨complete, hcomplete, hfree, hheld⟩ := h.whole hcut
    cases hmutex : s.sendMutex with
    | none => exact ⟨complete, [], hcomplete, by simpa using hfree hmutex, .inl rfl⟩
    | some t =>
      obtain ⟨encoded, offset, hcall⟩ := h.held t hmutex
      have hencoding := (h.sending t encoded offset hcall).2.1
      have hwire := hheld t encoded offset hcall
      by_cases hlt : offset < encoded.length
      · refine ⟨complete, encoded.take offset, hcomplete, hwire, .inr ⟨encoded,
          encoded.drop offset, hencoding, (List.take_append_drop _ _).symm, ?_⟩⟩
        intro hnil
        have hlength := List.drop_eq_nil_iff.mp hnil
        omega
      · -- the last byte is out and the lock is still held
        refine ⟨complete ++ [encoded], [], ?_, ?_, .inl rfl⟩
        · intro b hb
          rcases List.mem_append.mp hb with hb | hb
          · exact hcomplete b hb
          · exact List.mem_singleton.mp hb ▸ hencoding
        · rw [List.take_of_length_le (not_lt.mp hlt)] at hwire
          simpa using hwire

theorem IsEncoding.length_pos {encoded : Bytes} (h : IsEncoding limits encoded) :
    0 < encoded.length := by
  obtain ⟨frame, hencode⟩ := h
  obtain ⟨-, rfl⟩ := encodeFrame_eq_ok_iff.mp hencode
  have hheader : 0 < Frame.kHeaderSize := by decide
  rw [Frame.length_wire]
  omega

theorem wireInvariant_of_reachable
    (h : (sendSystem Tid limits).ReachableVia LockedAfterInterrupt s) :
    WireInvariant limits s := by
  refine TransitionSystem.ReachableVia.invariant ?_ ?_ h
  · intro s hs
    exact hs ▸ WireInvariant.initial
  · intro s a s' _ hinv hok hs
    exact hinv.step hok hs

theorem step_sent {t : Tid} {encoded : Bytes} {offset count : ℕ}
    (hcall : s.calls t = .sending encoded offset) (hpos : 0 < count)
    (hle : offset + count ≤ encoded.length) (hopen : s.shutDown = false) :
    s.step limits (.send t (.sent count)) =
      some { s.setCall t (.sending encoded (offset + count)) with
        wire := s.wire ++ (encoded.drop offset).take count } := by
  have hlt : offset < encoded.length := by omega
  have hcount : count ≤ encoded.length - offset := by omega
  simp [step, hcall, hlt, hpos, hcount, hopen]

/-- Taking the lock of a connection that is cut and not yet interrupted puts the next byte
behind the cut. -/
theorem WireInvariant.spliced (h : WireInvariant limits s) {t : Tid}
    (hbad : ¬ LockedAfterInterrupt s (.lock t)) (hs : s.step limits (.lock t) = some s') :
    ∃ s'', s'.step limits (.send t (.sent 1)) = some s'' ∧ ¬ WholeFrames limits s'' := by
  simp only [LockedAfterInterrupt, not_forall, not_or, Bool.not_eq_true,
    Bool.not_eq_false] at hbad
  obtain ⟨hcut, hshut, hopen⟩ := hbad
  obtain ⟨wire, hwire⟩ := Option.ne_none_iff_exists'.mp hcut
  cases step_view hs with
  | lockThrew t encoded hcall hfree hclosed =>
    rw [hopen] at hclosed
    cases hclosed
  | locked t encoded hcall hfree hopen =>
    have hpos := (h.waiting t encoded hcall).length_pos
    have hcall' : (s.setCall t (.sending encoded 0)).calls t = .sending encoded 0 := by simp
    refine ⟨_, step_sent hcall' Nat.one_pos (by omega) hshut, ?_⟩
    intro hwhole
    have heq : s.wire ++ (encoded.drop 0).take 1 = wire := hwhole.quiet wire hwire
    have hlength := congrArg List.length heq
    rw [← (h.broken wire hwire).1, List.drop_zero, List.length_append,
      List.length_take] at hlength
    omega

/-- Frames stay whole in every run in which a call that takes the lock after a failure in
mid-frame finds the connection interrupted or closed, and the first call that does not
can break them. -/
theorem whole_frames_of_interrupt (limits : FrameLimits W) (s : TcpSender Tid)
    (h : (sendSystem Tid limits).ReachableVia LockedAfterInterrupt s) :
    WholeFrames limits s ∧
    ∀ t s', s.step limits (.lock t) = some s' → ¬ LockedAfterInterrupt s (.lock t) →
      ∃ s'', s'.step limits (.send t (.sent 1)) = some s'' ∧ ¬ WholeFrames limits s'' := by
  have hinv := wireInvariant_of_reachable h
  exact ⟨hinv.wholeFrames, fun t s' hs hbad => hinv.spliced hbad hs⟩

/-- A send timeout after 10 bytes, interrupted before the waiting call gets the lock. -/
theorem whole_frames_of_interrupt_timeout : ∃ s : TcpSender (Fin 2),
    s.wire = (Frame.wire {}).take 10 ∧ s.calls 1 = .failed ∧
    WholeFrames ({} : FrameLimits .bits64) s := by
  obtain ⟨s, hs, hp⟩ := (sendSystem (Fin 2) ({} : FrameLimits .bits64)).exists_reachableVia_of_run
    LockedAfterInterrupt {}
    [.sendFrame 0 {}, .sendFrame 1 {}, .lock 0, .send 0 (.sent 10), .send 0 .error,
      .interrupt 0, .lock 1, .send 1 .error]
    (fun s => s.wire == (Frame.wire {}).take 10 && s.calls 1 == .failed) rfl (by decide +kernel)
  simp only [Bool.and_eq_true, beq_iff_eq] at hp
  exact ⟨s, hp.1, hp.2, (whole_frames_of_interrupt _ s hs).1⟩

/-- The lock is free between a failed call and its caller's `interrupt`: a waiting call
takes it and its frame follows the first ten bytes of another. -/
theorem failed_send_releases_lock :
    ¬ ∀ s : TcpSender (Fin 2),
      (sendSystem (Fin 2) ({} : FrameLimits .bits64)).Reachable s →
        WholeFrames ({} : FrameLimits .bits64) s := by
  intro hall
  obtain ⟨s, hs, hp⟩ := (sendSystem (Fin 2) ({} : FrameLimits .bits64)).exists_reachable_of_run
    {} [.sendFrame 0 {}, .sendFrame 1 {}, .lock 0, .send 0 (.sent 10), .send 0 .error, .lock 1,
      .send 1 (.sent 56)]
    (fun s => s.cut == some ((Frame.wire {}).take 10) &&
      s.wire == (Frame.wire {}).take 10 ++ Frame.wire {}) rfl (by decide +kernel)
  simp only [Bool.and_eq_true, beq_iff_eq] at hp
  have hquiet := (hall s hs).quiet _ hp.1
  rw [hp.2] at hquiet
  exact absurd (congrArg List.length hquiet) (by decide +kernel)

end TcpSender
end RobotMiddleware
