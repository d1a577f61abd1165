import RobotMiddleware.BridgeModel
import RobotMiddleware.FrameClassification

/-! Every exit of `receive_frame`, its two exception handlers included, and the counter that each
one increments. Calls are numbered, and any number of threads may make them. -/
namespace RobotMiddleware

inductive ReceiveCounter
  | heartbeatsReceived
  | rejectedFrames
  | unknownTopic
  | duplicateFrames
  | imported
  deriving DecidableEq, Repr

namespace BridgeImport

def value (b : BridgeImport) : ReceiveCounter → ℕ
  | .heartbeatsReceived => b.heartbeatsReceived
  | .rejectedFrames => b.rejectedFrames
  | .unknownTopic => b.unknownTopic
  | .duplicateFrames => b.duplicateFrames
  | .imported => b.imported

def increment (b : BridgeImport) : ReceiveCounter → BridgeImport
  | .heartbeatsReceived => { b with heartbeatsReceived := b.heartbeatsReceived + 1 }
  | .rejectedFrames => { b with rejectedFrames := b.rejectedFrames + 1 }
  | .unknownTopic => { b with unknownTopic := b.unknownTopic + 1 }
  | .duplicateFrames => { b with duplicateFrames := b.duplicateFrames + 1 }
  | .imported => { b with imported := b.imported + 1 }

end BridgeImport

inductive ReceivePhase
  | none
  | checking (frame : Frame)
  | classifying (frame : Frame)
  | routing (frame : Frame)
  | matching (frame : Frame) (route : ImportRoute)
  | keying (frame : Frame)
  | reserving (frame : Frame)
  | entering (frame : Frame)
  | handling (frame : Frame)
  | returned (result : Bool)
  deriving DecidableEq

/-- What happened so far: the calls that found the bridge stopped, what each other call counted,
the heartbeats that `client_loop` counted itself, and the frames that came to the import routes,
to the dedup table and to a handler. -/
structure ReceiveHistory where
  ignored : List ℕ := []
  counted : List (ℕ × ReceiveCounter) := []
  beats : ℕ := 0
  routed : List Frame := []
  checked : List Frame := []
  entered : List Frame := []
  deriving DecidableEq

/-- `calls` are the calls by number, of which `made` have been made. -/
structure ReceiveState where
  bridge : BridgeImport
  calls : ℕ → ReceivePhase := fun _ => .none
  made : ℕ := 0
  history : ReceiveHistory := {}

/-- `throw` is an exception outside the handler; with `cleared` the dedup table was emptied before
`emplace` threw. -/
inductive ReceiveAction
  | addImport (remoteTopic : Bytes) (route : ImportRoute)
  | stop
  | clientHeartbeat
  | receive (frame : Frame)
  | check (call : ℕ)
  | classify (call : ℕ)
  | lookup (call : ℕ)
  | compare (call : ℕ)
  | makeKey (call : ℕ)
  | reserve (call : ℕ)
  | enter (call : ℕ)
  | finish (call : ℕ) (threw : Bool)
  | throw (call : ℕ) (cleared : Bool)
  deriving DecidableEq

namespace ReceiveState

def setCall (s : ReceiveState) (call : ℕ) (phase : ReceivePhase) : ReceiveState :=
  { s with calls := Function.update s.calls call phase }

def exit (s : ReceiveState) (call : ℕ) (counter : ReceiveCounter) (result : Bool) : ReceiveState :=
  { s with
    bridge := s.bridge.increment counter
    history := { s.history with counted := s.history.counted ++ [(call, counter)] } }.setCall call
      (.returned result)

def step (s : ReceiveState) : ReceiveAction → Option ReceiveState
  | .addImport remoteTopic route =>
    match s.bridge.addImport remoteTopic route with
    | some bridge => some { s with bridge := bridge }
    | none => some s
  | .stop => some { s with bridge := { s.bridge with stopped := true } }
  | .clientHeartbeat =>
    some { s with
      bridge := s.bridge.increment .heartbeatsReceived
      history := { s.history with beats := s.history.beats + 1 } }
  | .receive frame => some ({ s with made := s.made + 1 }.setCall s.made (.checking frame))
  | .check call =>
    match s.calls call with
    | .checking frame =>
      if s.bridge.stopped then
        some ({ s with
          history := { s.history with ignored := s.history.ignored ++ [call] } }.setCall call
            (.returned false))
      else some (s.setCall call (.classifying frame))
    | _ => none
  | .classify call =>
    match s.calls call with
    | .classifying frame =>
      match classify frame with
      | .heartbeat => some (s.exit call .heartbeatsReceived true)
      | .protocolError => some (s.exit call .rejectedFrames false)
      | .business => some (s.setCall call (.routing frame))
    | _ => none
  | .lookup call =>
    match s.calls call with
    | .routing frame =>
      let s := { s with history := { s.history with routed := s.history.routed ++ [frame] } }
      match s.bridge.imports.lookup frame.topic with
      | none => some (s.exit call .unknownTopic false)
      | some route => some (s.setCall call (.matching frame route))
    | _ => none
  | .compare call =>
    match s.calls call with
    | .matching frame route =>
      if route.typeId ≠ frame.typeId ∨ route.schemaHash ≠ frame.schemaHash then
        some (s.exit call .rejectedFrames false)
      else some (s.setCall call (.keying frame))
    | _ => none
  | .makeKey call =>
    match s.calls call with
    | .keying frame => some (s.setCall call (.reserving frame))
    | _ => none
  | .reserve call =>
    match s.calls call with
    | .reserving frame =>
      let s := { s with history := { s.history with checked := s.history.checked ++ [frame] } }
      match s.bridge.reserve frame with
      | (bridge, true) => some ({ s with bridge := bridge }.setCall call (.entering frame))
      | (_, false) => some (s.exit call .duplicateFrames false)
    | _ => none
  | .enter call =>
    match s.calls call with
    | .entering frame =>
      some ({ s with
        history := { s.history with entered := s.history.entered ++ [frame] } }.setCall call
          (.handling frame))
    | _ => none
  | .finish call threw =>
    match s.calls call with
    | .handling _ =>
      -- the inner handler
      if threw then some (s.exit call .rejectedFrames false)
      else some (s.exit call .imported true)
    | _ => none
  | .throw call cleared =>
    -- the outer handler
    match s.calls call, cleared with
    | .routing _, false | .keying _, false | .reserving _, false =>
      some (s.exit call .rejectedFrames false)
    | .reserving frame, true =>
      let key := duplicateKey frame.topic frame.publisherId
      if s.bridge.highestSequences.lookup key = none ∧
          s.bridge.maxDedupEntries ≤ s.bridge.highestSequences.keys.length then
        let s := { s with
          bridge := { s.bridge with highestSequences := ∅ }
          history := { s.history with checked := s.history.checked ++ [frame] } }
        some (s.exit call .rejectedFrames false)
      else none
    | _, _ => none

end ReceiveState

def receiveSystem (options : NetworkBridgeOptions) :
    TransitionSystem ReceiveState ReceiveAction where
  init s := ∃ bridge, BridgeImport.create options = .ok bridge ∧ s = { bridge := bridge }
  step := ReceiveState.step

def ReceivePhase.passed : ReceivePhase → Option Frame
  | .routing frame | .matching frame _ | .keying frame | .reserving frame | .entering frame
  | .handling frame => some frame
  | _ => .none

def ReceiveCounter.succeeds : ReceiveCounter → Bool
  | .heartbeatsReceived | .imported => true
  | _ => false

namespace BridgeImport
variable {b b' : BridgeImport} {frame : Frame}

theorem value_increment (b : BridgeImport) (counter c : ReceiveCounter) :
    (b.increment counter).value c = b.value c + if counter = c then 1 else 0 := by
  cases counter <;> cases c <;> rfl

theorem value_reserve (h : (b.reserve frame).2 = true) (c : ReceiveCounter) :
    (b.reserve frame).1.value c = b.value c := by
  unfold reserve at h ⊢
  simp only at h ⊢
  split
  case h_1 found hfound =>
    rw [hfound] at h
    simp only at h
    split
    case isTrue hduplicate =>
      rw [if_pos hduplicate] at h
      cases h
    case isFalse => cases c <;> rfl
  case h_2 => cases c <;> rfl

theorem value_addImport {remoteTopic : Bytes} {route : ImportRoute}
    (h : b.addImport remoteTopic route = some b') (c : ReceiveCounter) : b'.value c = b.value c := by
  obtain ⟨-, hbridge⟩ := Option.ite_none_left_eq_some.mp h
  cases hbridge
  cases c <;> rfl

theorem value_create {options : NetworkBridgeOptions} (h : create options = .ok b)
    (c : ReceiveCounter) : b.value c = 0 := by
  unfold create at h
  split at h
  case isTrue => cases h
  case isFalse =>
    cases h
    cases c <;> rfl

end BridgeImport

namespace ReceiveState
variable {options : NetworkBridgeOptions} {s s' : ReceiveState}

def reached (s : ReceiveState) : List Frame :=
  s.history.routed ++ s.history.checked ++ s.history.entered

def beside (s : ReceiveState) (c : ReceiveCounter) : ℕ :=
  if c = .heartbeatsReceived then s.history.beats else 0

def Counts (s s' : ReceiveState) (counters : List ReceiveCounter) : Prop :=
  ∀ c, s'.bridge.value c + s.beside c = s.bridge.value c + s'.beside c + counters.count c

inductive StepView (s s' : ReceiveState) : Prop
  | beside : Counts s s' [] → s'.calls = s.calls → s'.made = s.made →
      s'.history.ignored = s.history.ignored → s'.history.counted = s.history.counted →
      s'.reached = s.reached → StepView s s'
  | advance (call : ℕ) (phase : ReceivePhase) :
      Counts s s' [] → s'.calls = Function.update s.calls call phase → call < s'.made →
      s.made ≤ s'.made → (∀ result, s.calls call ≠ .returned result) →
      (∀ result, phase ≠ .returned result) →
      (∀ frame ∈ phase.passed, (s.calls call).passed = some frame ∨ frame.flags = 0) →
      s'.history.ignored = s.history.ignored → s'.history.counted = s.history.counted →
      (∀ frame ∈ s'.reached, frame ∈ s.reached ∨ (s.calls call).passed = some frame) →
      StepView s s'
  | ignore (call : ℕ) :
      Counts s s' [] → s'.calls = Function.update s.calls call (.returned false) →
      s'.made = s.made → s.calls call ≠ .none → (∀ result, s.calls call ≠ .returned result) →
      s'.history.ignored = s.history.ignored ++ [call] →
      s'.history.counted = s.history.counted → s'.reached = s.reached → StepView s s'
  | exit (call : ℕ) (counter : ReceiveCounter) :
      Counts s s' [counter] →
      s'.calls = Function.update s.calls call (.returned counter.succeeds) →
      s'.made = s.made → s.calls call ≠ .none → (∀ result, s.calls call ≠ .returned result) →
      s'.history.ignored = s.history.ignored →
      s'.history.counted = s.history.counted ++ [(call, counter)] →
      (∀ frame ∈ s'.reached, frame ∈ s.reached ∨ (s.calls call).passed = some frame) →
      StepView s s'

theorem Counts.of_value (h : ∀ c, s'.bridge.value c = s.bridge.value c)
    (hbeats : s'.history.beats = s.history.beats) : Counts s s' [] := by
  intro c
  rw [h, beside, beside, hbeats, List.count_nil, Nat.add_zero]

/-- The exit of a call, after a section that counts nothing itself. -/
theorem exit_view {t : ReceiveState} {call : ℕ} (counter : ReceiveCounter)
    (hvalue : ∀ c, t.bridge.value c = s.bridge.value c)
    (hbeats : t.history.beats = s.history.beats) (hcalls : t.calls = s.calls)
    (hmade : t.made = s.made) (hignored : t.history.ignored = s.history.ignored)
    (hcounted : t.history.counted = s.history.counted)
    (hreached : ∀ frame ∈ t.reached, frame ∈ s.reached ∨ (s.calls call).passed = some frame)
    (hcall : s.calls call ≠ .none) (hrunning : ∀ result, s.calls call ≠ .returned result) :
    StepView s (t.exit call counter counter.succeeds) := by
  refine .exit call counter ?_ ?_ hmade hcall hrunning hignored ?_ hreached
  · intro c
    show (t.bridge.increment counter).value c + s.beside c = _ + t.beside c + _
    rw [BridgeImport.value_increment, hvalue, beside, beside, hbeats, List.count_singleton]
    simp only [beq_iff_eq]
    omega
  · exact congrArg (Function.update · call _) hcalls
  · exact congrArg (· ++ [(call, counter)]) hcounted

theorem exit_view_self {call : ℕ} (counter : ReceiveCounter) (hcall : s.calls call ≠ .none)
    (hrunning : ∀ result, s.calls call ≠ .returned result) :
    StepView s (s.exit call counter counter.succeeds) :=
  exit_view counter (fun _ => rfl) rfl rfl rfl rfl rfl (fun _ hframe => .inl hframe) hcall hrunning

/-- A call that goes on and leaves the counters and the log alone. -/
theorem setCall_view {call : ℕ} {phase : ReceivePhase} (hmade : call < s.made)
    (hrunning : ∀ result, s.calls call ≠ .returned result)
    (hphase : ∀ result, phase ≠ .returned result)
    (hpassed : ∀ frame ∈ phase.passed, (s.calls call).passed = some frame ∨ frame.flags = 0) :
    StepView s (s.setCall call phase) :=
  .advance call phase (.of_value (fun _ => rfl) rfl) rfl hmade le_rfl hrunning hphase hpassed rfl rfl
    fun _ hframe => .inl hframe

/-- One more frame got further. -/
theorem mem_reached_of_perm {frame frame' : Frame} (h : s'.reached.Perm (frame :: s.reached))
    (hframe : frame' ∈ s'.reached) : frame' ∈ s.reached ∨ some frame = some frame' := by
  rcases List.mem_cons.mp (h.mem_iff.mp hframe) with rfl | hold
  · exact .inr rfl
  · exact .inl hold

theorem reached_routed (frame : Frame) :
    (reached { s with history := { s.history with routed := s.history.routed ++ [frame] } }).Perm
      (frame :: s.reached) := by
  unfold reached
  simp only [List.append_assoc]
  exact List.perm_middle

theorem reached_checked (frame : Frame) :
    (reached { s with history := { s.history with checked := s.history.checked ++ [frame] } }).Perm
      (frame :: s.reached) := by
  unfold reached
  simp only [← List.append_assoc]
  simp only [List.append_assoc _ [frame]]
  exact List.perm_middle

theorem reached_entered (frame : Frame) :
    (reached { s with history := { s.history with entered := s.history.entered ++ [frame] } }).Perm
      (frame :: s.reached) := by
  unfold reached
  simp only [← List.append_assoc]
  exact List.perm_append_singleton _ _

theorem step_view {a : ReceiveAction} (hunmade : ∀ call, s.made ≤ call → s.calls call = .none)
    (hs : s.step a = some s') : StepView s s' := by
  have hmade {call : ℕ} {phase : ReceivePhase} (hcall : s.calls call = phase)
      (hphase : phase ≠ .none) : call < s.made := by
    by_contra hge
    exact hphase (hcall ▸ hunmade call (Nat.le_of_not_lt hge))
  cases a with
  | addImport remoteTopic route =>
    simp only [step] at hs
    split at hs
    case h_1 bridge hadd =>
      cases hs
      exact .beside (.of_value (BridgeImport.value_addImport hadd) rfl) rfl rfl rfl rfl rfl
    case h_2 =>
      cases hs
      exact .beside (.of_value (fun _ => rfl) rfl) rfl rfl rfl rfl rfl
  | stop =>
    cases hs
    refine .beside (.of_value (fun c => ?_) rfl) rfl rfl rfl rfl rfl
    cases c <;> rfl
  | clientHeartbeat =>
    cases hs
    refine .beside ?_ rfl rfl rfl rfl rfl
    intro c
    show (s.bridge.increment .heartbeatsReceived).value c + s.beside c = _
    rw [BridgeImport.value_increment]
    cases c with
    | heartbeatsReceived =>
      simp only [beside, List.count_nil, if_true]
      omega
    | _ => rfl
  | receive frame =>
    cases hs
    have hfree := hunmade s.made le_rfl
    refine .advance s.made (.checking frame) (.of_value (fun _ => rfl) rfl) rfl
      (Nat.lt_succ_self _) (Nat.le_succ _) ?_ nofun nofun rfl rfl fun _ hframe => .inl hframe
    rw [hfree]
    nofun
  | check call =>
    simp only [step] at hs
    split at hs
    case h_1 frame hcall =>
      split at hs
      · cases hs
        refine .ignore call (.of_value (fun _ => rfl) rfl) rfl rfl ?_ ?_ rfl rfl rfl
        · rw [hcall]
          nofun
        · rw [hcall]
          nofun
      · cases hs
        exact setCall_view (hmade hcall nofun) (by rw [hcall]; nofun) nofun nofun
    case h_2 => cases hs
  | classify call =>
    simp only [step] at hs
    split at hs
    case h_1 frame hcall =>
      have hcall' : s.calls call ≠ .none := by rw [hcall]; nofun
      have hrunning : ∀ result, s.calls call ≠ .returned result := by rw [hcall]; nofun
      split at hs
      case h_1 =>
        cases hs
        exact exit_view_self .heartbeatsReceived hcall' hrunning
      case h_2 =>
        cases hs
        exact exit_view_self .rejectedFrames hcall' hrunning
      case h_3 hbusiness =>
        cases hs
        refine setCall_view (hmade hcall nofun) hrunning nofun ?_
        rintro _ ⟨⟩
        exact .inr (classify_eq_business_iff.mp hbusiness)
    case h_2 => cases hs
  | lookup call =>
    simp only [step] at hs
    split at hs
    case h_1 frame hcall =>
      have hcall' : s.calls call ≠ .none := by rw [hcall]; nofun
      have hrunning : ∀ result, s.calls call ≠ .returned result := by rw [hcall]; nofun
      have hreached (frame' : Frame) (hframe : frame' ∈ (reached { s with
          history := { s.history with routed := s.history.routed ++ [frame] } })) :
          frame' ∈ s.reached ∨ (s.calls call).passed = some frame' := by
        rw [hcall]
        exact mem_reached_of_perm (reached_routed frame) hframe
      split at hs
      · cases hs
        exact exit_view .unknownTopic (fun _ => rfl) rfl rfl rfl rfl rfl hreached hcall'
          hrunning
      · cases hs
        refine .advance call _ (.of_value (fun _ => rfl) rfl) rfl (hmade hcall nofun) le_rfl hrunning
          nofun ?_ rfl rfl hreached
        rintro _ ⟨⟩
        rw [hcall]
        exact .inl rfl
    case h_2 => cases hs
  | compare call =>
    simp only [step] at hs
    split at hs
    case h_1 frame route hcall =>
      have hcall' : s.calls call ≠ .none := by rw [hcall]; nofun
      have hrunning : ∀ result, s.calls call ≠ .returned result := by rw [hcall]; nofun
      split at hs
      · cases hs
        exact exit_view_self .rejectedFrames hcall' hrunning
      · cases hs
        refine setCall_view (hmade hcall nofun) hrunning nofun ?_
        rintro _ ⟨⟩
        rw [hcall]
        exact .inl rfl
    case h_2 => cases hs
  | makeKey call =>
    simp only [step] at hs
    split at hs
    case h_1 frame hcall =>
      cases hs
      refine setCall_view (hmade hcall nofun) (by rw [hcall]; nofun) nofun ?_
      rintro _ ⟨⟩
      rw [hcall]
      exact .inl rfl
    case h_2 => cases hs
  | reserve call =>
    simp only [step] at hs
    split at hs
    case h_1 frame hcall =>
      have hcall' : s.calls call ≠ .none := by rw [hcall]; nofun
      have hrunning : ∀ result, s.calls call ≠ .returned result := by rw [hcall]; nofun
      have hreached (frame' : Frame) (hframe : frame' ∈ (reached { s with
          history := { s.history with checked := s.history.checked ++ [frame] } })) :
          frame' ∈ s.reached ∨ (s.calls call).passed = some frame' := by
        rw [hcall]
        exact mem_reached_of_perm (reached_checked frame) hframe
      split at hs
      case h_1 bridge hreserve =>
        cases hs
        have hvalue (c : ReceiveCounter) : bridge.value c = s.bridge.value c := by
          have hkept := BridgeImport.value_reserve (congrArg Prod.snd hreserve) c
          rw [hreserve] at hkept
          exact hkept
        refine .advance call _ (.of_value hvalue rfl) rfl (hmade hcall nofun) le_rfl hrunning
          nofun ?_ rfl rfl hreached
        rintro _ ⟨⟩
        rw [hcall]
        exact .inl rfl
      case h_2 =>
        cases hs
        exact exit_view .duplicateFrames (fun _ => rfl) rfl rfl rfl rfl rfl hreached
          hcall' hrunning
    case h_2 => cases hs
  | enter call =>
    simp only [step] at hs
    split at hs
    case h_1 frame hcall =>
      cases hs
      refine .advance call (.handling frame) (.of_value (fun _ => rfl) rfl) rfl (hmade hcall nofun)
        le_rfl (by rw [hcall]; nofun) nofun ?_ rfl rfl ?_
      · rintro _ ⟨⟩
        rw [hcall]
        exact .inl rfl
      · intro frame' hframe
        rw [hcall]
        exact mem_reached_of_perm (reached_entered frame) hframe
    case h_2 => cases hs
  | finish call threw =>
    simp only [step] at hs
    split at hs
    case h_1 frame hcall =>
      have hcall' : s.calls call ≠ .none := by rw [hcall]; nofun
      have hrunning : ∀ result, s.calls call ≠ .returned result := by rw [hcall]; nofun
      split at hs
      · cases hs
        exact exit_view_self .rejectedFrames hcall' hrunning
      · cases hs
        exact exit_view_self .imported hcall' hrunning
    case h_2 => cases hs
  | throw call cleared =>
    simp only [step] at hs
    split at hs
    case h_1 hcall | h_2 hcall | h_3 hcall =>
      cases hs
      exact exit_view_self .rejectedFrames (by rw [hcall]; nofun)
        (by rw [hcall]; nofun)
    case h_4 frame hcall =>
      obtain ⟨-, hs⟩ := Option.ite_none_right_eq_some.mp hs
      cases hs
      refine exit_view .rejectedFrames ?_ rfl rfl rfl rfl rfl ?_ (by rw [hcall]; nofun)
        (by rw [hcall]; nofun)
      · intro c
        cases c <;> rfl
      · intro frame' hframe
        rw [hcall]
        exact mem_reached_of_perm (reached_checked frame) hframe
    case h_5 => cases hs

/-- A call that has returned found the bridge stopped, or is in the log, once, with the counter
that goes with its result; the others are in neither list. -/
structure CountInvariant (s : ReceiveState) : Prop where
  unmade : ∀ call, s.made ≤ call → s.calls call = .none
  returned : ∀ call result, s.calls call = .returned result →
    (call ∈ s.history.ignored ∧ result = false ∧ call ∉ s.history.counted.map Prod.fst) ∨
      (call ∉ s.history.ignored ∧
        ∃ counter, (call, counter) ∈ s.history.counted ∧ result = counter.succeeds)
  running : ∀ call, (∀ result, s.calls call ≠ .returned result) →
    call ∉ s.history.ignored ∧ call ∉ s.history.counted.map Prod.fst
  once : (s.history.counted.map Prod.fst).Nodup
  values : ∀ c, s.bridge.value c = (s.history.counted.map Prod.snd).count c + s.beside c
  passed : ∀ call frame, (s.calls call).passed = some frame → frame.flags = 0
  reached : ∀ frame ∈ s.reached, frame.flags = 0

theorem CountInvariant.values_of_counts (h : CountInvariant s) {counters : List ReceiveCounter}
    (hcounts : Counts s s' counters)
    (hcounted : s'.history.counted.map Prod.snd = s.history.counted.map Prod.snd ++ counters)
    (c : ReceiveCounter) :
    s'.bridge.value c = (s'.history.counted.map Prod.snd).count c + s'.beside c := by
  have hbefore := h.values c
  have hstep := hcounts c
  rw [hcounted, List.count_append]
  omega

theorem CountInvariant.step {a : ReceiveAction} (h : CountInvariant s) (hs : s.step a = some s') :
    CountInvariant s' := by
  cases step_view h.unmade hs with
  | beside hcounts hcalls hmade hignored hcounted hreached =>
    refine ⟨?_, ?_, ?_, ?_, ?_, ?_, ?_⟩
    · rw [hcalls, hmade]
      exact h.unmade
    · rw [hcalls, hignored, hcounted]
      exact h.returned
    · rw [hcalls, hignored, hcounted]
      exact h.running
    · rw [hcounted]
      exact h.once
    · exact h.values_of_counts hcounts (by rw [hcounted, List.append_nil])
    · rw [hcalls]
      exact h.passed
    · rw [hreached]
      exact h.reached
  | advance call phase hcounts hcalls hcall hmade hrunning hphase hpassed hignored hcounted hreached =>
    refine ⟨?_, ?_, ?_, ?_, ?_, ?_, ?_⟩
    · intro c hc
      rw [hcalls, Function.update_of_ne (by omega)]
      exact h.unmade c (hmade.trans hc)
    · intro c result hc
      rw [hignored, hcounted]
      rcases eq_or_ne c call with rfl | hne
      · rw [hcalls, Function.update_self] at hc
        exact absurd hc (hphase result)
      · rw [hcalls, Function.update_of_ne hne] at hc
        exact h.returned c result hc
    · intro c hc
      rw [hignored, hcounted]
      rcases eq_or_ne c call with rfl | hne
      · exact h.running c hrunning
      · rw [hcalls, Function.update_of_ne hne] at hc
        exact h.running c hc
    · rw [hcounted]
      exact h.once
    · exact h.values_of_counts hcounts (by rw [hcounted, List.append_nil])
    · intro c frame hc
      rcases eq_or_ne c call with rfl | hne
      · rw [hcalls, Function.update_self] at hc
        rcases hpassed frame hc with hold | hflags
        · exact h.passed c frame hold
        · exact hflags
      · rw [hcalls, Function.update_of_ne hne] at hc
        exact h.passed c frame hc
    · intro frame hframe
      rcases hreached frame hframe with hold | hnew
      · exact h.reached frame hold
      · exact h.passed call frame hnew
  | ignore call hcounts hcalls hmade hcall hrunning hignored hcounted hreached =>
    obtain ⟨hfresh, hfresh'⟩ := h.running call hrunning
    refine ⟨?_, ?_, ?_, ?_, ?_, ?_, ?_⟩
    · intro c hc
      rw [hmade] at hc
      have hne : c ≠ call := by
        rintro rfl
        exact hcall (h.unmade c hc)
      rw [hcalls, Function.update_of_ne hne]
      exact h.unmade c hc
    · intro c result hc
      rw [hignored, hcounted]
      rcases eq_or_ne c call with rfl | hne
      · rw [hcalls, Function.update_self] at hc
        cases hc
        exact .inl ⟨List.mem_append_right _ List.mem_cons_self, rfl, hfresh'⟩
      · rw [hcalls, Function.update_of_ne hne] at hc
        simp only [List.mem_append, List.mem_singleton, hne, or_false]
        exact h.returned c result hc
    · intro c hc
      have hne : c ≠ call := by
        rintro rfl
        rw [hcalls, Function.update_self] at hc
        exact hc false rfl
      rw [hcalls, Function.update_of_ne hne] at hc
      rw [hignored, hcounted]
      simp only [List.mem_append, List.mem_singleton, hne, or_false]
      exact h.running c hc
    · rw [hcounted]
      exact h.once
    · exact h.values_of_counts hcounts (by rw [hcounted, List.append_nil])
    · intro c frame hc
      rcases eq_or_ne c call with rfl | hne
      · rw [hcalls, Function.update_self] at hc
        cases hc
      · rw [hcalls, Function.update_of_ne hne] at hc
        exact h.passed c frame hc
    · rw [hreached]
      exact h.reached
  | exit call counter hcounts hcalls hmade hcall hrunning hignored hcounted hreached =>
    obtain ⟨hfresh, hfresh'⟩ := h.running call hrunning
    have hfst : s'.history.counted.map Prod.fst = s.history.counted.map Prod.fst ++ [call] := by
      rw [hcounted, List.map_append]
      rfl
    refine ⟨?_, ?_, ?_, ?_, ?_, ?_, ?_⟩
    · intro c hc
      rw [hmade] at hc
      have hne : c ≠ call := by
        rintro rfl
        exact hcall (h.unmade c hc)
      rw [hcalls, Function.update_of_ne hne]
      exact h.unmade c hc
    · intro c result hc
      rw [hignored, hfst, hcounted]
      rcases eq_or_ne c call with rfl | hne
      · rw [hcalls, Function.update_self] at hc
        cases hc
        exact .inr ⟨hfresh, counter, List.mem_append_right _ List.mem_cons_self, rfl⟩
      · rw [hcalls, Function.update_of_ne hne] at hc
        simp only [List.mem_append, List.mem_singleton, hne, or_false, Prod.mk.injEq, false_and]
        exact h.returned c result hc
    · intro c hc
      have hne : c ≠ call := by
        rintro rfl
        rw [hcalls, Function.update_self] at hc
        exact hc _ rfl
      rw [hcalls, Function.update_of_ne hne] at hc
      rw [hignored, hfst]
      simp only [List.mem_append, List.mem_singleton, hne, or_false]
      exact h.running c hc
    · rw [hfst]
      exact List.nodup_append.mpr ⟨h.once, List.nodup_singleton _, by
        rintro a ha b hb rfl
        exact hfresh' (List.mem_singleton.mp hb ▸ ha)⟩
    · exact h.values_of_counts hcounts (by rw [hcounted, List.map_append]; rfl)
    · intro c frame hc
      rcases eq_or_ne c call with rfl | hne
      · rw [hcalls, Function.update_self] at hc
        cases hc
      · rw [hcalls, Function.update_of_ne hne] at hc
        exact h.passed c frame hc
    · intro frame hframe
      rcases hreached frame hframe with hold | hnew
      · exact h.reached frame hold
      · exact h.passed call frame hnew

theorem countInvariant_of_reachable (h : (receiveSystem options).Reachable s) :
    CountInvariant s := by
  refine TransitionSystem.Reachable.invariant ?_ ?_ h
  · rintro s ⟨bridge, hcreate, rfl⟩
    refine ⟨fun _ _ => rfl, nofun, fun _ _ => ⟨nofun, nofun⟩, .nil, ?_, nofun, nofun⟩
    intro c
    show bridge.value c = 0 + beside _ c
    rw [BridgeImport.value_create hcreate]
    cases c <;> rfl
  · intro s a s' _ ih hs
    exact ih.step hs

/-- The three receive paths put a frame into the same class, only business frames get past the
tests in `receive_frame`, and every call of it that finds the bridge not stopped increments one
counter, once, and says by its result which kind of counter. -/
theorem classified_and_counted_once (h : (receiveSystem options).Reachable s) :
    (∀ frame : Frame,
      (classify frame = .heartbeat ↔ frame.flags = 1 ∧ frame.topic = kHeartbeatTopic ∧
        frame.typeId = 0 ∧ frame.schemaHash = 0 ∧ frame.payload = []) ∧
      (classify frame = .business ↔ frame.flags = 0) ∧
      (sessionFrame frame = .ok .heartbeat ↔ classify frame = .heartbeat) ∧
      (sessionFrame frame = .ok .handle ↔ classify frame = .business) ∧
      ((∃ fault, sessionFrame frame = .error fault) ↔ classify frame = .protocolError) ∧
      (clientFrame frame = .ok .heartbeat ↔ classify frame = .heartbeat) ∧
      (clientFrame frame = .ok .deliver ↔ classify frame = .business) ∧
      ((∃ fault, clientFrame frame = .error fault) ↔ classify frame = .protocolError)) ∧
    (∀ frame, frame ∈ s.history.routed ∨ frame ∈ s.history.checked ∨ frame ∈ s.history.entered →
      classify frame = .business) ∧
    (∀ call result, s.calls call = .returned result → call ∉ s.history.ignored →
      (s.history.counted.map Prod.fst).count call = 1 ∧
        ∃ counter, (call, counter) ∈ s.history.counted ∧
          (result = true ↔ counter = .heartbeatsReceived ∨ counter = .imported)) ∧
    ∀ counter, s.bridge.value counter = (s.history.counted.map Prod.snd).count counter +
      if counter = .heartbeatsReceived then s.history.beats else 0 := by
  have hinvariant := countInvariant_of_reachable h
  refine ⟨?_, ?_, ?_, hinvariant.values⟩
  · intro frame
    exact ⟨classify_eq_heartbeat_iff.trans isHeartbeatFrame_iff, classify_eq_business_iff,
      sessionFrame_eq_heartbeat_iff, sessionFrame_eq_handle_iff, sessionFrame_eq_error_iff,
      clientFrame_eq_heartbeat_iff, clientFrame_eq_deliver_iff, clientFrame_eq_error_iff⟩
  · intro frame hframe
    refine classify_eq_business_iff.mpr (hinvariant.reached frame ?_)
    unfold reached
    simp only [List.mem_append, or_assoc]
    exact hframe
  · intro call result hreturned hheard
    rcases hinvariant.returned call result hreturned with ⟨hignored, -⟩ | ⟨-, counter, hmem, rfl⟩
    · exact absurd hignored hheard
    · refine ⟨?_, counter, hmem, ?_⟩
      · exact List.count_eq_one_of_mem hinvariant.once (List.mem_map_of_mem hmem)
      · cases counter <;> decide

/-- Four calls at once: a heartbeat, a duplicate, a frame whose handler throws, and one whose
topic no import has. -/
theorem classified_and_counted_once_four :
    ∃ s : ReceiveState, s.history.counted =
        [(0, .heartbeatsReceived), (3, .unknownTopic), (2, .duplicateFrames), (1, .rejectedFrames)] ∧
      ∀ call result, s.calls call = .returned result → call ∉ s.history.ignored →
        (s.history.counted.map Prod.fst).count call = 1 := by
  let frame : Frame := { topic := [97], sequence := 5 }
  obtain ⟨s, hs, hp⟩ := (receiveSystem {}).exists_reachable_of_run
    { bridge := { maxDedupEntries := 4096, maxDedupEntries_pos := by decide } }
    [.addImport [97] {}, .receive (makeHeartbeatFrame 7 0 0), .receive frame, .receive frame,
      .receive { topic := [98] }, .check 0, .check 1, .check 2, .check 3, .classify 0, .classify 1,
      .classify 2, .classify 3, .lookup 1, .lookup 3, .lookup 2, .compare 1, .compare 2, .makeKey 1,
      .makeKey 2, .reserve 1, .enter 1, .reserve 2, .finish 1 true]
    (fun s => s.history.counted ==
      [(0, .heartbeatsReceived), (3, .unknownTopic), (2, .duplicateFrames), (1, .rejectedFrames)])
    ⟨_, rfl, rfl⟩ (by decide +kernel)
  obtain ⟨-, -, hcounted, -⟩ := classified_and_counted_once hs
  exact ⟨s, beq_iff_eq.mp hp, fun call result hcall hheard => (hcounted call result hcall hheard).1⟩

end ReceiveState
end RobotMiddleware
