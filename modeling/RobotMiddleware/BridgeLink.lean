import RobotMiddleware.BridgeExportOrder
import RobotMiddleware.BridgeReceive

/-! Two bridges and one connection between them. The frames that leave the queue of an exporting
bridge are given to the `receive_frame` of an importing one, in that order and one after the
other, while callbacks export and sessions of other publishers call `receive_frame` too. -/
namespace RobotMiddleware

namespace ReceiveCall

def frame : ReceiveCall → Frame
  | .routing frame | .matched frame | .reserved frame | .handling frame => frame

/-- The next section of the call; the handler does not throw. -/
def action : ReceiveCall → ImportAction
  | .routing frame => .lookup frame
  | .matched frame => .reserve frame
  | .reserved frame => .enter frame
  | .handling frame => .finish frame false

def next : ReceiveCall → Option ReceiveCall
  | .routing frame => some (.matched frame)
  | .matched frame => some (.reserved frame)
  | .reserved frame => some (.handling frame)
  | .handling _ => none

end ReceiveCall

def ImportAction.frame : ImportAction → Option Frame
  | .addImport _ _ | .stop => none
  | .receive frame | .lookup frame | .reserve frame | .enter frame | .finish frame _ => some frame

/-- `inTransit` is on the connection, `receiving` is where its session thread is in
`receive_frame`, and `received` are its frames with what the calls returned. -/
structure LinkState (Tid : Type) {Ty : Type} (Val : Ty → Type) where
  source : BridgeNodeState Tid Val
  destination : ImportState
  inTransit : List Frame := []
  receiving : Option ReceiveCall := none
  received : List (Frame × Bool) := []

inductive LinkAction (Tid : Type) {Ty : Type} (Val : Ty → Type)
  | source (a : BridgeNodeAction Tid Val)
  | send
  | receive
  | proceed
  | destination (a : ImportAction)

namespace LinkState
variable {Tid Ty : Type} {Val : Ty → Type}

def publisherId (s : LinkState Tid Val) (i : ℕ) : BitVec 64 :=
  (s.source.bridges i).bridge.publisherId

def settle (s : LinkState Tid Val) (frame : Frame) (next : Option ReceiveCall)
    (destination : ImportState) : LinkState Tid Val :=
  match destination.history.returns.drop s.destination.history.returns.length with
  | (_, result) :: _ =>
    { s with
      destination := destination
      receiving := none
      received := s.received ++ [(frame, result)] }
  | [] => { s with destination := destination, receiving := next }

variable [DecidableEq Tid] [DecidableEq Ty]

/-- A step of the bridge `i` or of its node, of the connection, or of the importing bridge,
which is not stopped and gets the frames of this publisher over this connection only. -/
def step (traits : MessageTraits Val) (i : ℕ) (s : LinkState Tid Val) :
    LinkAction Tid Val → Option (LinkState Tid Val)
  | .source (.take j) =>
    if j = i then none
    else (s.source.step traits (.take j)).map fun source => { s with source := source }
  | .source a => (s.source.step traits a).map fun source => { s with source := source }
  | .send =>
    match (s.source.bridges i).bridge.outbound.queue with
    | frame :: _ =>
      (s.source.step traits (.take i)).map fun source =>
        { s with source := source, inTransit := s.inTransit ++ [frame] }
    | [] => none
  | .receive =>
    match s.receiving, s.inTransit with
    | none, frame :: rest =>
      (s.destination.step (.receive frame)).map
        (settle { s with inTransit := rest } frame (some (.routing frame)))
    | _, _ => none
  | .proceed =>
    match s.receiving with
    | some call => (s.destination.step call.action).map (s.settle call.frame call.next)
    | none => none
  | .destination a =>
    if a ≠ .stop ∧ ∀ frame ∈ a.frame, frame.publisherId ≠ s.publisherId i then
      (s.destination.step a).map fun destination => { s with destination := destination }
    else none

end LinkState

/-- A fresh source, and an importing bridge that runs and has not seen its publisher id. -/
def linkSystem {Tid Ty : Type} {Val : Ty → Type} [DecidableEq Tid] [DecidableEq Ty]
    (traits : MessageTraits Val) (options : ℕ → NetworkBridgeOptions)
    (defaultPublisherId : ℕ → BitVec 64) (importOptions : NetworkBridgeOptions) (i : ℕ) :
    TransitionSystem (LinkState Tid Val) (LinkAction Tid Val) where
  init s := (bridgeNodeSystem traits options defaultPublisherId).init s.source ∧
    (importSystem importOptions).Reachable s.destination ∧ s.destination.bridge.stopped = false ∧
    (∀ call ∈ s.destination.calls, call.frame.publisherId ≠ s.publisherId i) ∧
    (∀ frame ∈ s.destination.checked, frame.publisherId ≠ s.publisherId i) ∧
    s.inTransit = [] ∧ s.receiving = none ∧ s.received = []
  step := LinkState.step traits i

namespace ImportState
variable {options : NetworkBridgeOptions} {s s' : ImportState} {a : ImportAction}
  {id : BitVec 64} {frame : Frame}

/-! The calls and the frames of one publisher. -/

def callsOf (s : ImportState) (id : BitVec 64) : Multiset ReceiveCall :=
  s.calls.filter fun call => call.frame.publisherId = id

def verdictsOf (s : ImportState) (id : BitVec 64) : List (Frame × Bool) :=
  s.history.verdicts.filter fun v => v.1.publisherId = id

def enteredOf (s : ImportState) (id : BitVec 64) : List Frame :=
  s.history.entered.filter fun frame => frame.publisherId = id

/-- What a publisher has at the importer: its calls and what became of its frames, and the
routes, which stay. -/
structure Undisturbed (id : BitVec 64) (s s' : ImportState) : Prop where
  calls : s'.callsOf id = s.callsOf id
  verdicts : s'.verdictsOf id = s.verdictsOf id
  entered : s'.enteredOf id = s.enteredOf id
  routes : ∀ topic route, s.bridge.imports.lookup topic = some route →
    s'.bridge.imports.lookup topic = some route
  stopped : s'.bridge.stopped = s.bridge.stopped

theorem filter_cons_of_ne (call : ReceiveCall) (h : call.frame.publisherId ≠ id)
    (calls : Multiset ReceiveCall) :
    (call ::ₘ calls).filter (fun call => call.frame.publisherId = id) =
      calls.filter fun call => call.frame.publisherId = id :=
  Multiset.filter_cons_of_neg _ h

theorem filter_cons_of_eq (call : ReceiveCall) (h : call.frame.publisherId = id)
    (calls : Multiset ReceiveCall) :
    (call ::ₘ calls).filter (fun call => call.frame.publisherId = id) =
      call ::ₘ calls.filter fun call => call.frame.publisherId = id :=
  Multiset.filter_cons_of_pos _ h

theorem filter_erase_of_ne (call : ReceiveCall) (h : call.frame.publisherId ≠ id)
    {calls : Multiset ReceiveCall} (hmem : call ∈ calls) :
    (calls.erase call).filter (fun call => call.frame.publisherId = id) =
      calls.filter fun call => call.frame.publisherId = id := by
  rw [← filter_cons_of_ne call h, Multiset.cons_erase hmem]

theorem filter_concat_of_ne {α : Type} (f : α → BitVec 64) {xs : List α} {x : α} (h : f x ≠ id) :
    (xs ++ [x]).filter (fun x => f x = id) = xs.filter fun x => f x = id := by
  simp [List.filter_append, h]

theorem filter_concat_of_eq {α : Type} (f : α → BitVec 64) {xs : List α} {x : α} (h : f x = id) :
    (xs ++ [x]).filter (fun x => f x = id) = (xs.filter fun x => f x = id) ++ [x] := by
  simp [List.filter_append, h]

theorem bridge_of_lookupRoute (b : BridgeImport) (frame : Frame) :
    (b.lookupRoute frame).1.imports = b.imports ∧
      (b.lookupRoute frame).1.stopped = b.stopped := by
  unfold BridgeImport.lookupRoute
  split
  · exact ⟨rfl, rfl⟩
  · split
    · exact ⟨rfl, rfl⟩
    · exact ⟨rfl, rfl⟩

theorem bridge_of_reserve (b : BridgeImport) (frame : Frame) :
    (b.reserve frame).1.imports = b.imports ∧ (b.reserve frame).1.stopped = b.stopped := by
  have hview := b.reserve_view frame
  generalize b.reserve frame = r at hview
  cases hview with
  | duplicate => exact ⟨rfl, rfl⟩
  | advanced => exact ⟨rfl, rfl⟩
  | fresh => exact ⟨rfl, rfl⟩
  | cleared => exact ⟨rfl, rfl⟩

theorem bridge_of_finish (b : BridgeImport) (threw : Bool) :
    (b.finish threw).imports = b.imports ∧ (b.finish threw).stopped = b.stopped := by
  cases threw with
  | false => exact ⟨rfl, rfl⟩
  | true => exact ⟨rfl, rfl⟩

/-- A step that has nothing to do with the publisher. -/
theorem undisturbed_of_step (h : s.step a = some s')
    (hother : ∀ frame ∈ a.frame, frame.publisherId ≠ id) (hstop : a ≠ .stop) :
    Undisturbed id s s' := by
  have hroutes {b : BridgeImport} (hb : b.imports = s.bridge.imports) (topic : Bytes)
      (route : ImportRoute) (hroute : s.bridge.imports.lookup topic = some route) :
      b.imports.lookup topic = some route := by rw [hb, hroute]
  cases a with
  | addImport remoteTopic route =>
    simp only [step] at h
    split at h
    case h_1 bridge hadd =>
      cases h
      obtain ⟨hguard, hbridge⟩ := Option.ite_none_left_eq_some.mp hadd
      cases hbridge
      refine ⟨rfl, rfl, rfl, fun topic old hold => ?_, rfl⟩
      have hne : topic ≠ remoteTopic := by
        rintro rfl
        rw [hold] at hguard
        simp at hguard
      exact (AList.lookup_insert_ne hne).trans hold
    case h_2 =>
      cases h
      exact ⟨rfl, rfl, rfl, hroutes rfl, rfl⟩
  | stop => exact absurd rfl hstop
  | receive frame =>
    have hne : frame.publisherId ≠ id := hother frame rfl
    simp only [step] at h
    split at h
    case isTrue =>
      cases h
      exact ⟨rfl, rfl, rfl, hroutes rfl, rfl⟩
    case isFalse =>
      split at h
      · cases h
        exact ⟨rfl, rfl, rfl, hroutes rfl, rfl⟩
      · cases h
        exact ⟨rfl, rfl, rfl, hroutes rfl, rfl⟩
      · cases h
        exact ⟨filter_cons_of_ne (.routing frame) hne _, rfl, rfl, hroutes rfl, rfl⟩
  | lookup frame =>
    have hne : frame.publisherId ≠ id := hother frame rfl
    obtain ⟨hmem, h⟩ := Option.ite_none_right_eq_some.mp h
    have herase := filter_erase_of_ne (.routing frame) hne hmem
    obtain ⟨himports, hstopped⟩ := bridge_of_lookupRoute s.bridge frame
    split at h
    case h_1 bridge hroute =>
      cases h
      rw [hroute] at himports hstopped
      exact ⟨(filter_cons_of_ne (.matched frame) hne _).trans herase, rfl, rfl, hroutes himports, hstopped⟩
    case h_2 bridge hroute =>
      cases h
      rw [hroute] at himports hstopped
      exact ⟨herase, rfl, rfl, hroutes himports, hstopped⟩
  | reserve frame =>
    have hne : frame.publisherId ≠ id := hother frame rfl
    obtain ⟨hmem, h⟩ := Option.ite_none_right_eq_some.mp h
    have herase := filter_erase_of_ne (.matched frame) hne hmem
    obtain ⟨himports, hstopped⟩ := bridge_of_reserve s.bridge frame
    have hverdicts : (s.history.verdicts ++ [(frame, (s.bridge.reserve frame).2)]).filter
        (fun v => v.1.publisherId = id) = s.verdictsOf id :=
      filter_concat_of_ne (fun v : Frame × Bool => v.1.publisherId) hne
    split at h
    case h_1 bridge hreserve =>
      cases h
      rw [hreserve] at himports hstopped
      exact ⟨(filter_cons_of_ne (.reserved frame) hne _).trans herase, hverdicts, rfl, hroutes himports, hstopped⟩
    case h_2 bridge hreserve =>
      cases h
      rw [hreserve] at himports hstopped
      exact ⟨herase, hverdicts, rfl, hroutes himports, hstopped⟩
  | enter frame =>
    have hne : frame.publisherId ≠ id := hother frame rfl
    obtain ⟨hmem, h⟩ := Option.ite_none_right_eq_some.mp h
    have herase := filter_erase_of_ne (.reserved frame) hne hmem
    cases h
    exact ⟨(filter_cons_of_ne (.handling frame) hne _).trans herase, rfl,
      filter_concat_of_ne Frame.publisherId hne, hroutes rfl, rfl⟩
  | finish frame threw =>
    have hne : frame.publisherId ≠ id := hother frame rfl
    obtain ⟨hmem, h⟩ := Option.ite_none_right_eq_some.mp h
    obtain ⟨himports, hstopped⟩ := bridge_of_finish s.bridge threw
    cases h
    exact ⟨filter_erase_of_ne (.handling frame) hne hmem, rfl, rfl, hroutes himports, hstopped⟩

/-- No step but `stop` takes away a route or stops the bridge. -/
theorem routes_of_step (h : s.step a = some s') (hstop : a ≠ .stop) :
    (∀ topic route, s.bridge.imports.lookup topic = some route →
      s'.bridge.imports.lookup topic = some route) ∧
        s'.bridge.stopped = s.bridge.stopped := by
  have hother : ∃ id : BitVec 64, ∀ frame ∈ a.frame, frame.publisherId ≠ id := by
    cases a.frame with
    | none => exact ⟨0, nofun⟩
    | some frame =>
      refine ⟨frame.publisherId + 1, fun other hmem heq => ?_⟩
      obtain rfl := Option.mem_some_iff.mp hmem
      simp at heq
  obtain ⟨id, hother⟩ := hother
  have hundisturbed := undisturbed_of_step h hother hstop
  exact ⟨hundisturbed.routes, hundisturbed.stopped⟩

/-! The sections of a call whose frame is let through. -/

theorem step_receive (hrunning : s.bridge.stopped = false) (hflags : frame.flags = 0) :
    s.step (.receive frame) = some { s with calls := .routing frame ::ₘ s.calls } := by
  have hclass : classify frame = .business := by
    simp [classify, hasHeartbeatFlag, hflags]
  simp only [step, hrunning, hclass, Bool.false_eq_true, if_false]

theorem step_lookup (hmem : .routing frame ∈ s.calls)
    (hroute : s.bridge.imports.lookup frame.topic = some ⟨frame.typeId, frame.schemaHash⟩) :
    s.step (.lookup frame) =
      some { s with calls := .matched frame ::ₘ s.calls.erase (.routing frame) } := by
  have hlookup : s.bridge.lookupRoute frame = (s.bridge, true) := by
    simp [BridgeImport.lookupRoute, hroute]
  simp only [step, hmem, if_true, hlookup]

theorem step_reserve (hmem : .matched frame ∈ s.calls)
    (hfresh : (s.bridge.reserve frame).2 = true) : s.step (.reserve frame) = some {
      bridge := (s.bridge.reserve frame).1
      calls := .reserved frame ::ₘ s.calls.erase (.matched frame)
      history := { s.history with verdicts := s.history.verdicts ++ [(frame, true)] } } := by
  have hreserve : s.bridge.reserve frame = ((s.bridge.reserve frame).1, true) :=
    Prod.ext rfl hfresh
  simp only [step, hmem, if_true]
  rw [hreserve]

/-- The publisher has one call. -/
theorem callsOf_erase {call : ReceiveCall} (hcalls : s.callsOf id = {call}) :
    (s.calls.erase call).filter (fun call => call.frame.publisherId = id) = 0 := by
  have hmem : call ∈ s.callsOf id := by
    rw [hcalls]
    exact Multiset.mem_singleton_self _
  obtain ⟨hmem, hcall⟩ := Multiset.mem_filter.mp hmem
  have hsplit : s.callsOf id =
      call ::ₘ (s.calls.erase call).filter fun call => call.frame.publisherId = id := by
    rw [← filter_cons_of_eq call hcall, Multiset.cons_erase hmem]
    rfl
  rw [hcalls] at hsplit
  exact (Multiset.cons_inj_right call).mp hsplit.symm

theorem callsOf_next {call next : ReceiveCall} (hcalls : s.callsOf id = {call})
    (hframe : next.frame.publisherId = id) :
    (next ::ₘ s.calls.erase call).filter (fun call => call.frame.publisherId = id) = {next} := by
  rw [filter_cons_of_eq next hframe, callsOf_erase hcalls]
  rfl

/-- What the table remembers of a pair is the number of a frame that was let through. -/
theorem exists_accepted_of_lookup (h : (importSystem options).Reachable s) {topic : Bytes}
    {found : SequenceState}
    (hfound : s.bridge.highestSequences.lookup (duplicateKey topic id) = some found) :
    ∃ frame ∈ s.accepted, frame.topic = topic ∧ frame.publisherId = id ∧
      found.highest = frame.sequence := by
  revert found
  refine h.invariant (P := fun s => ∀ {found : SequenceState},
    s.bridge.highestSequences.lookup (duplicateKey topic id) = some found →
      ∃ frame ∈ s.accepted, frame.topic = topic ∧ frame.publisherId = id ∧
        found.highest = frame.sequence) ?_ fun s a s' _ ih hs => ?_
  · rintro s ⟨bridge, hcreate, rfl⟩ found hfound
    rw [(BridgeImport.create_eq_ok hcreate).2] at hfound
    cases hfound
  · intro found hfound
    cases step_view hs with
    | enter frame _ hbridge hverdicts =>
      rw [hbridge] at hfound
      rw [accepted, hverdicts]
      exact ih hfound
    | other _ _ hne htable hmax hverdicts =>
      rw [htable] at hfound
      rw [accepted, hverdicts]
      exact ih hfound
    | reserve frame _ hbridge hverdicts =>
      have hmono (g : Frame) (hg : g ∈ s.accepted) : g ∈ s'.accepted := by
        rw [accepted, hverdicts, KeyedFilter.passed_append]
        exact List.mem_append_left _ hg
      -- the entry of this key is new, or it was there before
      have hinsert {table : AList fun _ : Bytes => SequenceState}
          (hverdict : (s.bridge.reserve frame).2 = true)
          (hlookup : (table.insert (BridgeImport.frameKey frame)
            ⟨frame.sequence, frame.sendTimeNs⟩).lookup (duplicateKey topic id) = some found)
          (hold : table.lookup (duplicateKey topic id) = some found →
            s.bridge.highestSequences.lookup (duplicateKey topic id) = some found) :
          ∃ frame ∈ s'.accepted, frame.topic = topic ∧ frame.publisherId = id ∧
            found.highest = frame.sequence := by
        by_cases hkey : duplicateKey topic id = BridgeImport.frameKey frame
        · rw [hkey, AList.lookup_insert] at hlookup
          cases hlookup
          obtain ⟨rfl, rfl⟩ := duplicateKey_injective hkey
          refine ⟨frame, ?_, rfl, rfl, rfl⟩
          rw [accepted, hverdicts, hverdict]
          exact KeyedFilter.mem_passed.mpr (List.mem_append_right _ (List.mem_singleton.mpr rfl))
        · rw [AList.lookup_insert_ne hkey] at hlookup
          obtain ⟨g, hg, hfacts⟩ := ih (hold hlookup)
          exact ⟨g, hmono g hg, hfacts⟩
      rw [hbridge] at hfound
      have hview := s.bridge.reserve_view frame
      generalize s.bridge.reserve frame = r at hview hinsert hfound
      cases hview with
      | duplicate =>
        obtain ⟨g, hg, hfacts⟩ := ih hfound
        exact ⟨g, hmono g hg, hfacts⟩
      | advanced => exact hinsert rfl hfound fun hold => hold
      | fresh => exact hinsert rfl hfound fun hold => hold
      | cleared => exact hinsert rfl hfound fun hold => by cases hold

/-- A frame with a greater number than all of its pair before is let through. -/
theorem reserve_of_newer (h : (importSystem options).Reachable s)
    (hnewer : ∀ g ∈ s.accepted, g.topic = frame.topic → g.publisherId = frame.publisherId →
      g.sequence < frame.sequence) : (s.bridge.reserve frame).2 = true := by
  have hview := s.bridge.reserve_view frame
  generalize s.bridge.reserve frame = r at hview
  cases hview with
  | duplicate found hfound hrefused =>
    obtain ⟨g, hg, htopic, hpublisher, hhighest⟩ := exists_accepted_of_lookup h hfound
    have hlt := hnewer g hg htopic hpublisher
    have hadmits : referenceFilter.admits found frame = true := by
      simp only [referenceFilter, decide_eq_true_eq]
      exact .inl (hhighest ▸ hlt)
    rw [hadmits] at hrefused
    cases hrefused
  | advanced => rfl
  | fresh => rfl
  | cleared => rfl

end ImportState

namespace BridgeNodeState
variable {Tid Ty : Type} {Val : Ty → Type} [DecidableEq Tid] [DecidableEq Ty]
  {traits : MessageTraits Val} {s s' : BridgeNodeState Tid Val} {a : BridgeNodeAction Tid Val}
  {i : ℕ}

/-- Only the sender takes frames out of the queue. -/
theorem sent_of_view (h : StepView traits s a s') :
    a = .take i ∨ (s'.bridges i).sent = (s.bridges i).sent := by
  have hset {j : ℕ} {state : BridgeState Tid Val}
      (hbridges : s'.bridges = Function.update s.bridges j state)
      (hsent : state.sent = (s.bridges j).sent) : (s'.bridges i).sent = (s.bridges i).sent := by
    rw [hbridges]
    by_cases hij : i = j
    · rw [hij, Function.update_self, hsent]
    · rw [Function.update_of_ne hij]
  cases h with
  | registered t j localTopic networkTopic block id bridge hcall hbridge =>
    exact .inr (hset rfl rfl)
  | routed t j remoteTopic τ bridge hcall hbridge => exact .inr (hset rfl rfl)
  | taken j frame rest =>
    by_cases hij : i = j
    · exact .inl (by rw [hij])
    · right
      simp only [setBridge, Function.update_of_ne hij]
  | made | emitted | pushed | overflowed | stopped | cleared | closed => exact .inr (hset rfl rfl)
  | _ => exact .inr rfl

theorem sent_of_take (h : s.step traits (.take i) = some s') {frame : Frame} {rest : List Frame}
    (hqueue : (s.bridges i).bridge.outbound.queue = frame :: rest) :
    (s'.bridges i).sent = (s.bridges i).sent ++ [frame] := by
  cases step_view h with
  | taken j frame' rest' hqueue' =>
    cases hqueue.symm.trans hqueue'
    simp only [setBridge, Function.update_self]
  | refused _ _ _ hact => simp [BridgeNodeAction.begins] at hact
  | busRefused _ _ _ _ _ _ hact => simp at hact

/-- The topics of a bridge have one export subscription each, they are imported with the same
message types, and the counter has not come round. -/
structure Favourable (traits : MessageTraits Val) (i : ℕ)
    (imports : AList (fun _ : Bytes => ImportRoute)) (s : BridgeNodeState Tid Val) : Prop where
  distinct : s.TopicsDistinct i
  imported : ∀ block e, s.exports block = some e → e.bridge = i →
    imports.lookup e.networkTopic =
      some ⟨traits.typeId e.localType, traits.schemaHash e.localType⟩
  draws_le : (s.bridges i).draws ≤ 2 ^ 64

/-- With every export subscription of the bridge registered, `export_topics_` keeps the topics
apart. -/
theorem Favourable.of_registered {imports : AList (fun _ : Bytes => ImportRoute)}
    (h : (bridgeNodeSystem traits options defaultPublisherId).Reachable s)
    (hregistered : ∀ block e, s.exports block = some e → e.bridge = i →
      block ∈ (s.bridges i).bridge.exportCancellers)
    (himported : ∀ block e, s.exports block = some e → e.bridge = i →
      imports.lookup e.networkTopic =
        some ⟨traits.typeId e.localType, traits.schemaHash e.localType⟩)
    (hdraws : (s.bridges i).draws ≤ 2 ^ 64) : s.Favourable traits i imports :=
  ⟨topicsDistinct_of_registered h hregistered, himported, hdraws⟩

theorem draws_le_of_view (hs : BridgeView traits s s' i) :
    (s.bridges i).draws ≤ (s'.bridges i).draws := by
  have hsame (hdraws : (s'.bridges i).flow.draws = (s.bridges i).flow.draws) :
      (s.bridges i).draws ≤ (s'.bridges i).draws := hdraws.ge
  have hdrawn (hflow : (s'.bridges i).flow = (s.bridges i).flow.draw) :
      (s.bridges i).draws ≤ (s'.bridges i).draws := by
    have hdraws : (s'.bridges i).draws = (s.bridges i).draws + 1 :=
      (congrArg ExportFlow.draws hflow :)
    omega
  cases hs with
  | kept _ hflow => exact hsame (by rw [hflow])
  | wasted _ hflow => exact hdrawn hflow
  | drawn _ _ _ _ _ _ _ hflow => exact hdrawn hflow
  | emitted _ _ _ _ hflow => exact hsame (by rw [hflow])
  | pushed _ _ _ _ _ _ hflow => exact hsame (by rw [hflow])

theorem Favourable.of_step {imports : AList (fun _ : Bytes => ImportRoute)}
    (h : s'.Favourable traits i imports) (hinv : s.ExportInvariant traits)
    (hs : s.step traits a = some s') : s.Favourable traits i imports := by
  have hview := (hinv.step hs).2
  have hkept {block : ℕ} {e : ExportLambda Ty} (he : s.exports block = some e) :
      s'.exports block = some e := exports_of_view hview he
  refine ⟨?_, ?_, (draws_le_of_view (bridge_view hinv.idle hview i)).trans h.draws_le⟩
  · intro block other e e' he he'
    exact h.distinct block other e e' (hkept he) (hkept he')
  · intro block e he
    exact h.imported block e (hkept he)

/-- What a queued frame is to the importer. -/
theorem queued_frame {imports : AList (fun _ : Bytes => ImportRoute)}
    (h : s.Favourable traits i imports) (hinv : s.ExportInvariant traits) {frame : Frame}
    (hmem : frame ∈ (s.bridges i).queued.map ExportedFrame.frame) :
    frame.flags = 0 ∧ frame.publisherId = (s.bridges i).bridge.publisherId ∧
      imports.lookup frame.topic = some ⟨frame.typeId, frame.schemaHash⟩ := by
  obtain ⟨x, hx, rfl⟩ := List.mem_map.mp hmem
  obtain ⟨e, message, now, he, hbridge, -, hframe⟩ := (hinv.flow i).made x (.inr (.inr hx))
  obtain ⟨payload, -, hframe⟩ := MessageTraits.makeFrame_eq_ok hframe
  rw [hframe]
  exact ⟨rfl, rfl, h.imported _ e he hbridge⟩

/-- On each topic the queued frames have increasing numbers. -/
theorem queued_increasing {imports : AList (fun _ : Bytes => ImportRoute)}
    (h : s.Favourable traits i imports) (hinv : s.ExportInvariant traits) :
    ((s.bridges i).queued.map ExportedFrame.frame).Pairwise fun f g =>
      f.topic = g.topic → f.sequence < g.sequence := by
  have hordered := ((hinv.flow i).ordered h.draws_le).increasing
  refine List.pairwise_map.mpr (hordered.imp_of_mem fun {x y} hx hy hlt htopic => ?_)
  -- the frames of one topic come from one export subscription
  obtain ⟨e, _, _, he, hbridge, -, hframe⟩ := (hinv.flow i).made x (.inr (.inr hx))
  obtain ⟨e', _, _, he', hbridge', -, hframe'⟩ := (hinv.flow i).made y (.inr (.inr hy))
  obtain ⟨payload, -, hframe⟩ := MessageTraits.makeFrame_eq_ok hframe
  obtain ⟨payload', -, hframe'⟩ := MessageTraits.makeFrame_eq_ok hframe'
  have hnetwork : e.networkTopic = e'.networkTopic := by
    rw [hframe, hframe'] at htopic
    exact htopic
  exact BitVec.lt_def.mpr (hlt (h.distinct _ _ e e' he he' hbridge hbridge' hnetwork))

end BridgeNodeState

def ReceiveCall.passed : ReceiveCall → List Frame
  | .routing _ | .matched _ => []
  | .reserved frame | .handling frame => [frame]

def ReceiveCall.entered : ReceiveCall → List Frame
  | .routing _ | .matched _ | .reserved _ => []
  | .handling frame => [frame]

namespace LinkState
variable {Tid Ty : Type} {Val : Ty → Type} [DecidableEq Tid] [DecidableEq Ty]
  {traits : MessageTraits Val} {options : ℕ → NetworkBridgeOptions}
  {defaultPublisherId : ℕ → BitVec 64} {importOptions : NetworkBridgeOptions}
  {s s' : LinkState Tid Val} {a : LinkAction Tid Val} {i : ℕ}

omit [DecidableEq Tid] [DecidableEq Ty] in
theorem settle_of_calling {frame : Frame} {next : Option ReceiveCall} {destination : ImportState}
    (h : destination.history.returns = s.destination.history.returns) :
    s.settle frame next destination =
      { s with destination := destination, receiving := next } := by
  rw [settle, h, List.drop_length]

omit [DecidableEq Tid] [DecidableEq Ty] in
theorem settle_of_returned {frame : Frame} {next : Option ReceiveCall}
    {destination : ImportState} {result : Bool}
    (h : destination.history.returns = s.destination.history.returns ++ [(frame, result)]) :
    s.settle frame next destination = { s with
      destination := destination
      receiving := none
      received := s.received ++ [(frame, result)] } := by
  rw [settle, h, List.drop_left]

omit [DecidableEq Tid] [DecidableEq Ty] in
@[simp] theorem settle_source (frame : Frame) (next : Option ReceiveCall)
    (destination : ImportState) : (s.settle frame next destination).source = s.source := by
  unfold settle
  split <;> rfl

omit [DecidableEq Tid] [DecidableEq Ty] in
@[simp] theorem settle_destination (frame : Frame) (next : Option ReceiveCall)
    (destination : ImportState) :
    (s.settle frame next destination).destination = destination := by
  unfold settle
  split <;> rfl

/-- Every frame that was sent is where the connection has got it, and the call of its session
thread and the frames of the publisher at the importer are those of the connection. -/
structure Delivered (i : ℕ) (s : LinkState Tid Val) : Prop where
  sent : (s.source.bridges i).sent =
    s.received.map Prod.fst ++ (s.receiving.map ReceiveCall.frame).toList ++ s.inTransit
  results : ∀ r ∈ s.received, r.2 = true
  calls : s.destination.callsOf (s.publisherId i) = s.receiving.elim 0 fun call => {call}
  verdicts : s.destination.verdictsOf (s.publisherId i) =
    (s.received.map Prod.fst ++ s.receiving.elim [] ReceiveCall.passed).map fun f => (f, true)
  entered : s.destination.enteredOf (s.publisherId i) =
    s.received.map Prod.fst ++ s.receiving.elim [] ReceiveCall.entered

structure LinkInvariant (traits : MessageTraits Val) (options : ℕ → NetworkBridgeOptions)
    (defaultPublisherId : ℕ → BitVec 64) (importOptions : NetworkBridgeOptions) (i : ℕ)
    (imports : AList (fun _ : Bytes => ImportRoute)) (s : LinkState Tid Val) : Prop where
  source : (bridgeNodeSystem traits options defaultPublisherId).Reachable s.source
  destination : (importSystem importOptions).Reachable s.destination
  running : s.destination.bridge.stopped = false
  routes : ∀ topic route, imports.lookup topic = some route →
    s.destination.bridge.imports.lookup topic = some route
  delivered : s.source.Favourable traits i imports → s.Delivered i

variable {imports : AList (fun _ : Bytes => ImportRoute)}

/-- What is sent is a part of what was queued, in its order. -/
theorem sent_sublist {source : BridgeNodeState Tid Val}
    (h : (bridgeNodeSystem traits options defaultPublisherId).Reachable source) :
    (source.bridges i).sent.Sublist ((source.bridges i).queued.map ExportedFrame.frame) := by
  rw [BridgeNodeState.queueInvariant_of_reachable h i]
  exact List.sublist_append_left _ _

theorem publisherId_of_source {source source' : BridgeNodeState Tid Val}
    {act : BridgeNodeAction Tid Val}
    (h : (bridgeNodeSystem traits options defaultPublisherId).Reachable source)
    (hs : source.step traits act = some source') :
    (source'.bridges i).bridge.publisherId = (source.bridges i).bridge.publisherId := by
  have hinv := BridgeNodeState.exportInvariant_of_reachable h
  exact BridgeNodeState.publisherId_of_view
    (BridgeNodeState.bridge_view hinv.idle (hinv.step hs).2 i)

namespace LinkInvariant

theorem initial (h : (linkSystem traits options defaultPublisherId importOptions i).init s) :
    s.LinkInvariant traits options defaultPublisherId importOptions i
      s.destination.bridge.imports := by
  obtain ⟨hsource, hdestination, hrunning, hcalls, hchecked, htransit, hreceiving, hreceived⟩ := h
  have hsent : (s.source.bridges i).sent = [] := by
    obtain ⟨bridges, -, hinit⟩ := hsource
    rw [hinit]
  refine ⟨.init hsource, hdestination, hrunning, fun _ _ hroute => hroute, fun _ => ?_⟩
  refine ⟨?_, ?_, ?_, ?_, ?_⟩
  · rw [hsent, hreceived, hreceiving, htransit]
    rfl
  · rw [hreceived]
    nofun
  · rw [hreceiving]
    exact Multiset.filter_eq_nil.mpr hcalls
  · rw [hreceived, hreceiving]
    apply List.filter_eq_nil_iff.mpr
    intro v hv hid
    exact hchecked v.1 (List.mem_map_of_mem hv) (of_decide_eq_true hid)
  · rw [hreceived, hreceiving]
    apply List.filter_eq_nil_iff.mpr
    intro frame hframe hid
    -- a frame in a handler has passed the checks
    have haccepted : frame ∈ s.destination.accepted := by
      rw [← Multiset.mem_coe, ← ImportState.entered_add_awaiting hdestination]
      exact Multiset.mem_add.mpr (.inl hframe)
    have hmem : frame ∈ s.destination.checked :=
      List.mem_map.mpr ⟨_, KeyedFilter.mem_passed.mp haccepted, rfl⟩
    exact hchecked frame hmem (of_decide_eq_true hid)

theorem of_source (h : s.LinkInvariant traits options defaultPublisherId importOptions i imports)
    {act : BridgeNodeAction Tid Val} {source : BridgeNodeState Tid Val} (htake : act ≠ .take i)
    (hs : s.source.step traits act = some source) :
    LinkInvariant traits options defaultPublisherId importOptions i imports
      { s with source := source } := by
  have hpublisher := publisherId_of_source (i := i) h.source hs
  refine ⟨h.source.step hs, h.destination, h.running, h.routes, fun hfavourable => ?_⟩
  obtain ⟨hsent, hresults, hcalls, hverdicts, hentered⟩ := h.delivered
    (hfavourable.of_step (BridgeNodeState.exportInvariant_of_reachable h.source) hs)
  have hsame : (source.bridges i).sent = (s.source.bridges i).sent :=
    (BridgeNodeState.sent_of_view (BridgeNodeState.step_view hs)).resolve_left htake
  refine ⟨hsame.trans hsent, hresults, ?_, ?_, ?_⟩
  · rw [publisherId, hpublisher]
    exact hcalls
  · rw [publisherId, hpublisher]
    exact hverdicts
  · rw [publisherId, hpublisher]
    exact hentered

theorem of_send (h : s.LinkInvariant traits options defaultPublisherId importOptions i imports)
    {source : BridgeNodeState Tid Val} {frame : Frame} {rest : List Frame}
    (hqueue : (s.source.bridges i).bridge.outbound.queue = frame :: rest)
    (hs : s.source.step traits (.take i) = some source) :
    LinkInvariant traits options defaultPublisherId importOptions i imports
      { s with source := source, inTransit := s.inTransit ++ [frame] } := by
  have hpublisher := publisherId_of_source (i := i) h.source hs
  refine ⟨h.source.step (a := .take i) hs, h.destination, h.running, h.routes,
    fun hfavourable => ?_⟩
  obtain ⟨hsent, hresults, hcalls, hverdicts, hentered⟩ := h.delivered
    (hfavourable.of_step (BridgeNodeState.exportInvariant_of_reachable h.source) hs)
  refine ⟨?_, hresults, ?_, ?_, ?_⟩
  · rw [BridgeNodeState.sent_of_take hs hqueue, hsent]
    exact List.append_assoc _ _ _
  · rw [publisherId, hpublisher]
    exact hcalls
  · rw [publisherId, hpublisher]
    exact hverdicts
  · rw [publisherId, hpublisher]
    exact hentered

theorem of_destination
    (h : s.LinkInvariant traits options defaultPublisherId importOptions i imports)
    {act : ImportAction} {destination : ImportState} (hstop : act ≠ .stop)
    (hother : ∀ frame ∈ act.frame, frame.publisherId ≠ s.publisherId i)
    (hs : s.destination.step act = some destination) :
    LinkInvariant traits options defaultPublisherId importOptions i imports
      { s with destination := destination } := by
  have hundisturbed := ImportState.undisturbed_of_step hs hother hstop
  refine ⟨h.source, h.destination.step hs, hundisturbed.stopped.trans h.running,
    fun topic route hroute => hundisturbed.routes topic route (h.routes topic route hroute),
    fun hfavourable => ?_⟩
  obtain ⟨hsent, hresults, hcalls, hverdicts, hentered⟩ := h.delivered hfavourable
  exact ⟨hsent, hresults, hundisturbed.calls.trans hcalls, hundisturbed.verdicts.trans hverdicts,
    hundisturbed.entered.trans hentered⟩

/-- What the source says about a frame on the connection. -/
theorem frame_facts (h : s.LinkInvariant traits options defaultPublisherId importOptions i imports)
    (hfavourable : s.source.Favourable traits i imports) {frame : Frame}
    (hmem : frame ∈ (s.source.bridges i).sent) :
    frame.flags = 0 ∧ frame.publisherId = s.publisherId i ∧
      s.destination.bridge.imports.lookup frame.topic =
        some ⟨frame.typeId, frame.schemaHash⟩ := by
  obtain ⟨hflags, hid, hroute⟩ := BridgeNodeState.queued_frame hfavourable
    (BridgeNodeState.exportInvariant_of_reachable h.source)
    ((sent_sublist h.source).subset hmem)
  exact ⟨hflags, hid, h.routes _ _ hroute⟩

/-- A section of the session's own call. -/
theorem of_session
    (h : s.LinkInvariant traits options defaultPublisherId importOptions i imports)
    {act : ImportAction} (hsource : s'.source = s.source) (hstop : act ≠ .stop)
    (hs : s.destination.step act = some s'.destination)
    (hdelivered : s.source.Favourable traits i imports → s'.Delivered i) :
    s'.LinkInvariant traits options defaultPublisherId importOptions i imports := by
  obtain ⟨hroutes, hstopped⟩ := ImportState.routes_of_step hs hstop
  refine ⟨hsource ▸ h.source, h.destination.step (a := act) hs, hstopped.trans h.running,
    fun topic route hroute => hroutes topic route (h.routes topic route hroute), ?_⟩
  rw [hsource]
  exact hdelivered

theorem of_receive
    (h : s.LinkInvariant traits options defaultPublisherId importOptions i imports)
    {frame : Frame} {rest : List Frame} {destination : ImportState} (hidle : s.receiving = none)
    (htransit : s.inTransit = frame :: rest)
    (hs : s.destination.step (.receive frame) = some destination) :
    LinkInvariant traits options defaultPublisherId importOptions i imports
      (settle { s with inTransit := rest } frame (some (.routing frame)) destination) := by
  have hdestination : s.destination.step (.receive frame) =
      some (settle { s with inTransit := rest } frame (some (.routing frame))
        destination).destination := by
    rw [settle_destination]
    exact hs
  refine h.of_session (settle_source ..) (by simp) hdestination fun hfavourable => ?_
  obtain ⟨hsent, hresults, hcalls, hverdicts, hentered⟩ := h.delivered hfavourable
  rw [hidle] at hsent hcalls hverdicts hentered
  have hmem : frame ∈ (s.source.bridges i).sent := by
    rw [hsent, htransit]
    simp
  obtain ⟨hflags, hid, -⟩ := h.frame_facts hfavourable hmem
  cases (ImportState.step_receive h.running hflags).symm.trans hs
  rw [settle_of_calling]
  swap
  · rfl
  refine ⟨?_, hresults, ?_, hverdicts, hentered⟩
  · rw [hsent, htransit]
    simp [ReceiveCall.frame]
  · exact (ImportState.filter_cons_of_eq (.routing frame) hid _).trans (congrArg _ hcalls)

/-- The number of a frame on the connection is greater than those of its topic before. -/
theorem reserve_of_matched
    (h : s.LinkInvariant traits options defaultPublisherId importOptions i imports)
    (hfavourable : s.source.Favourable traits i imports) {frame : Frame}
    (hreceiving : s.receiving = some (.matched frame)) :
    (s.destination.bridge.reserve frame).2 = true := by
  obtain ⟨hsent, hresults, hcalls, hverdicts, hentered⟩ := h.delivered hfavourable
  rw [hreceiving] at hsent hverdicts
  have hincreasing := (BridgeNodeState.queued_increasing hfavourable
    (BridgeNodeState.exportInvariant_of_reachable h.source)).sublist (sent_sublist h.source)
  have hmem : frame ∈ (s.source.bridges i).sent := by
    rw [hsent]
    simp [ReceiveCall.frame]
  have hid := (h.frame_facts hfavourable hmem).2.1
  apply ImportState.reserve_of_newer h.destination
  intro g hg htopic hpublisher
  -- `g` has come over the connection before
  have hbefore : g ∈ s.received.map Prod.fst := by
    have hverdict : (g, true) ∈ s.destination.verdictsOf (s.publisherId i) :=
      List.mem_filter.mpr ⟨KeyedFilter.mem_passed.mp hg, decide_eq_true (hpublisher.trans hid)⟩
    rw [hverdicts] at hverdict
    obtain ⟨g', hg', heq⟩ := List.mem_map.mp hverdict
    cases heq
    simpa [ReceiveCall.passed] using hg'
  rw [hsent, List.append_assoc] at hincreasing
  exact (List.pairwise_append.mp hincreasing).2.2 g hbefore frame (by simp [ReceiveCall.frame])
    htopic

theorem of_proceed
    (h : s.LinkInvariant traits options defaultPublisherId importOptions i imports)
    {call : ReceiveCall} {destination : ImportState} (hreceiving : s.receiving = some call)
    (hs : s.destination.step call.action = some destination) :
    LinkInvariant traits options defaultPublisherId importOptions i imports
      (s.settle call.frame call.next destination) := by
  have hstop : call.action ≠ .stop := by
    cases call <;> simp [ReceiveCall.action]
  have hdestination : s.destination.step call.action =
      some (s.settle call.frame call.next destination).destination := by
    rw [settle_destination]
    exact hs
  refine h.of_session (settle_source ..) hstop hdestination fun hfavourable => ?_
  obtain ⟨hsent, hresults, hcalls, hverdicts, hentered⟩ := h.delivered hfavourable
  rw [hreceiving] at hsent hcalls hverdicts hentered
  have hmem : call.frame ∈ (s.source.bridges i).sent := by
    rw [hsent]
    simp
  obtain ⟨-, hid, hroute⟩ := h.frame_facts hfavourable hmem
  have hcall : call ∈ s.destination.calls := by
    have hone : call ∈ s.destination.callsOf (s.publisherId i) := by
      rw [hcalls]
      exact Multiset.mem_singleton_self _
    exact (Multiset.mem_filter.mp hone).1
  cases call with
  | routing frame =>
    cases (ImportState.step_lookup hcall hroute).symm.trans hs
    rw [settle_of_calling]
    swap
    · rfl
    exact ⟨hsent, hresults, ImportState.callsOf_next hcalls hid, hverdicts, hentered⟩
  | matched frame =>
    have hfresh := h.reserve_of_matched hfavourable hreceiving
    cases (ImportState.step_reserve hcall hfresh).symm.trans hs
    rw [settle_of_calling]
    swap
    · rfl
    refine ⟨hsent, hresults, ImportState.callsOf_next hcalls hid, ?_, hentered⟩
    have hverdict : ((frame, true) : Frame × Bool).1.publisherId = s.publisherId i := hid
    refine (ImportState.filter_concat_of_eq (fun v : Frame × Bool => v.1.publisherId)
      hverdict).trans ?_
    rw [← ImportState.verdictsOf, hverdicts]
    simp [ReceiveCall.passed, ReceiveCall.next]
  | reserved frame =>
    have hs := (if_pos hcall).symm.trans hs
    cases hs
    rw [settle_of_calling]
    swap
    · rfl
    refine ⟨hsent, hresults, ImportState.callsOf_next hcalls hid, hverdicts, ?_⟩
    refine (ImportState.filter_concat_of_eq Frame.publisherId hid).trans ?_
    rw [← ImportState.enteredOf, hentered]
    simp [ReceiveCall.entered, ReceiveCall.next, ReceiveCall.frame]
  | handling frame =>
    have hs := (if_pos hcall).symm.trans hs
    cases hs
    rw [settle_of_returned]
    swap
    · rfl
    refine ⟨?_, ?_, ?_, ?_, ?_⟩
    · rw [hsent]
      simp [ReceiveCall.frame]
    · intro r hr
      rcases List.mem_append.mp hr with hr | hr
      · exact hresults r hr
      · rw [List.mem_singleton.mp hr]
        rfl
    · exact ImportState.callsOf_erase hcalls
    · refine hverdicts.trans ?_
      simp [ReceiveCall.passed, ReceiveCall.frame]
    · refine hentered.trans ?_
      simp [ReceiveCall.entered, ReceiveCall.frame]

theorem step (h : s.LinkInvariant traits options defaultPublisherId importOptions i imports)
    (hs : s.step traits i a = some s') :
    s'.LinkInvariant traits options defaultPublisherId importOptions i imports := by
  cases a with
  | source act =>
    by_cases htake : act = .take i
    · subst htake
      simp [LinkState.step] at hs
    · have hs : (s.source.step traits act).map (fun source => { s with source := source }) =
          some s' := by
        cases act with
        | take j => exact (if_neg fun hj => htake (by rw [hj])).symm.trans hs
        | _ => exact hs
      obtain ⟨source, hsource, rfl⟩ := Option.map_eq_some_iff.mp hs
      exact h.of_source htake hsource
  | send =>
    simp only [LinkState.step] at hs
    split at hs
    case h_1 frame rest hqueue =>
      obtain ⟨source, hsource, rfl⟩ := Option.map_eq_some_iff.mp hs
      exact h.of_send hqueue hsource
    case h_2 => cases hs
  | receive =>
    simp only [LinkState.step] at hs
    split at hs
    case h_1 frame rest hidle htransit =>
      obtain ⟨destination, hdestination, rfl⟩ := Option.map_eq_some_iff.mp hs
      exact h.of_receive hidle htransit hdestination
    case h_2 => cases hs
  | proceed =>
    simp only [LinkState.step] at hs
    split at hs
    case h_1 call hreceiving =>
      obtain ⟨destination, hdestination, rfl⟩ := Option.map_eq_some_iff.mp hs
      exact h.of_proceed hreceiving hdestination
    case h_2 => cases hs
  | destination act =>
    obtain ⟨⟨hstop, hother⟩, hs⟩ := Option.ite_none_right_eq_some.mp hs
    obtain ⟨destination, hdestination, rfl⟩ := Option.map_eq_some_iff.mp hs
    exact h.of_destination hstop hother hdestination

theorem of_reachable
    (h : (linkSystem traits options defaultPublisherId importOptions i).Leads s s')
    (hs : (linkSystem traits options defaultPublisherId importOptions i).init s) :
    s'.LinkInvariant traits options defaultPublisherId importOptions i
      s.destination.bridge.imports :=
  h.invariant (fun _ _ _ ih hstep => ih.step hstep) (initial hs)

end LinkInvariant

def callRank : ReceiveCall → ℕ
  | .routing _ => 4
  | .matched _ => 3
  | .reserved _ => 2
  | .handling _ => 1

def rank (i : ℕ) (s : LinkState Tid Val) : ℕ :=
  6 * (s.source.bridges i).bridge.outbound.queue.length + 5 * s.inTransit.length +
    s.receiving.elim 0 callRank

def Settled (i : ℕ) (s : LinkState Tid Val) : Prop :=
  (s.source.bridges i).bridge.outbound.queue = [] ∧ s.inTransit = [] ∧ s.receiving = none

omit [DecidableEq Tid] [DecidableEq Ty] in
theorem rank_next (call : ReceiveCall) : call.next.elim 0 callRank < callRank call := by
  cases call <;> simp [ReceiveCall.next, callRank]

/-- The call of the session thread goes on. -/
theorem LinkInvariant.exists_proceed
    (h : s.LinkInvariant traits options defaultPublisherId importOptions i imports)
    (hfavourable : s.source.Favourable traits i imports) {call : ReceiveCall}
    (hreceiving : s.receiving = some call) :
    ∃ s', s.step traits i .proceed = some s' ∧ s'.source = s.source ∧
      s'.inTransit = s.inTransit ∧ s'.receiving = call.next := by
  obtain ⟨hsent, -, hcalls, -, -⟩ := h.delivered hfavourable
  rw [hreceiving] at hsent hcalls
  have hmem : call.frame ∈ (s.source.bridges i).sent := by
    rw [hsent]
    simp
  obtain ⟨-, -, hroute⟩ := h.frame_facts hfavourable hmem
  have hcall : call ∈ s.destination.calls := by
    have hone : call ∈ s.destination.callsOf (s.publisherId i) := by
      rw [hcalls]
      exact Multiset.mem_singleton_self _
    exact (Multiset.mem_filter.mp hone).1
  have hproceed {destination : ImportState}
      (hstep : s.destination.step call.action = some destination) :
      s.step traits i .proceed = some (s.settle call.frame call.next destination) := by
    simp only [LinkState.step, hreceiving, hstep, Option.map_some]
  cases call with
  | routing frame =>
    refine ⟨_, hproceed (ImportState.step_lookup hcall hroute), settle_source .., ?_⟩
    rw [settle_of_calling]
    swap
    · rfl
    exact ⟨rfl, rfl⟩
  | matched frame =>
    have hfresh := h.reserve_of_matched hfavourable hreceiving
    refine ⟨_, hproceed (ImportState.step_reserve hcall hfresh), settle_source .., ?_⟩
    rw [settle_of_calling]
    swap
    · rfl
    exact ⟨rfl, rfl⟩
  | reserved frame =>
    refine ⟨_, hproceed (if_pos hcall), settle_source .., ?_⟩
    rw [settle_of_calling]
    swap
    · rfl
    exact ⟨rfl, rfl⟩
  | handling frame =>
    refine ⟨_, hproceed (if_pos hcall), settle_source .., ?_⟩
    rw [settle_of_returned]
    swap
    · rfl
    exact ⟨rfl, rfl⟩

/-- As long as something is on its way the connection has a step to take. -/
theorem LinkInvariant.exists_progress
    (h : s.LinkInvariant traits options defaultPublisherId importOptions i imports)
    (hfavourable : s.source.Favourable traits i imports) (hsettled : ¬ s.Settled i) :
    ∃ a s', s.step traits i a = some s' ∧ s'.source.Favourable traits i imports ∧
      (s'.source.bridges i).queued = (s.source.bridges i).queued ∧ s'.rank i < s.rank i := by
  cases hreceiving : s.receiving with
  | some call =>
    obtain ⟨s', hstep, hsource, htransit, hnext⟩ := h.exists_proceed hfavourable hreceiving
    refine ⟨.proceed, s', hstep, hsource ▸ hfavourable, by rw [hsource], ?_⟩
    have hlt := rank_next call
    simp only [rank, hsource, htransit, hnext, hreceiving, Option.elim_some]
    omega
  | none =>
    cases htransit : s.inTransit with
    | cons frame rest =>
      obtain ⟨hsent, -⟩ := h.delivered hfavourable
      have hmem : frame ∈ (s.source.bridges i).sent := by
        rw [hsent, htransit]
        simp
      have hstep := ImportState.step_receive h.running (h.frame_facts hfavourable hmem).1
      refine ⟨.receive, { s with
        destination := { s.destination with calls := .routing frame ::ₘ s.destination.calls }
        inTransit := rest
        receiving := some (.routing frame) }, ?_, hfavourable, rfl, ?_⟩
      · simp only [LinkState.step, hreceiving, htransit, hstep, Option.map_some]
        rw [settle_of_calling]
        rfl
      · simp only [rank, htransit, hreceiving, List.length_cons, Option.elim_some,
          Option.elim_none, callRank]
        omega
    | nil =>
      cases hqueue : (s.source.bridges i).bridge.outbound.queue with
      | nil => exact absurd ⟨hqueue, htransit, hreceiving⟩ hsettled
      | cons frame rest =>
        have htake : ∃ source, s.source.step traits (.take i) = some source ∧
            source.exports = s.source.exports ∧
            (source.bridges i).draws = (s.source.bridges i).draws ∧
            (source.bridges i).queued = (s.source.bridges i).queued ∧
            (source.bridges i).bridge.outbound.queue = rest := by
          simp only [BridgeNodeState.step, hqueue]
          refine ⟨_, rfl, rfl, ?_, ?_, ?_⟩
          · simp only [BridgeNodeState.setBridge, Function.update_self]
          · simp only [BridgeNodeState.setBridge, Function.update_self]
          · simp only [BridgeNodeState.setBridge, Function.update_self]
        obtain ⟨source, hstep, hexports, hdraws, hqueued, hrest⟩ := htake
        refine ⟨.send, { s with source := source, inTransit := s.inTransit ++ [frame] }, ?_,
          ⟨?_, ?_, ?_⟩, hqueued, ?_⟩
        · simp only [LinkState.step, hqueue, hstep, Option.map_some]
        · rw [BridgeNodeState.TopicsDistinct, hexports]
          exact hfavourable.distinct
        · rw [hexports]
          exact hfavourable.imported
        · rw [hdraws]
          exact hfavourable.draws_le
        · simp only [rank, hrest, hqueue, htransit, hreceiving, List.length_cons, List.nil_append,
            List.length_nil, Option.elim_none]
          omega

/-- Everything that was queued can still get through. -/
theorem LinkInvariant.exists_settled
    (h : s.LinkInvariant traits options defaultPublisherId importOptions i imports)
    (hfavourable : s.source.Favourable traits i imports) :
    ∃ s', (linkSystem traits options defaultPublisherId importOptions i).Leads s s' ∧
      s'.LinkInvariant traits options defaultPublisherId importOptions i imports ∧
      s'.source.Favourable traits i imports ∧
      (s'.source.bridges i).queued = (s.source.bridges i).queued ∧ s'.Settled i := by
  have hprogress (t : LinkState Tid Val)
      (ht : t.LinkInvariant traits options defaultPublisherId importOptions i imports ∧
        t.source.Favourable traits i imports ∧
        (t.source.bridges i).queued = (s.source.bridges i).queued) (hsettled : ¬ t.Settled i) :
      ∃ a t', (linkSystem traits options defaultPublisherId importOptions i).step t a = some t' ∧
        (t'.LinkInvariant traits options defaultPublisherId importOptions i imports ∧
          t'.source.Favourable traits i imports ∧
          (t'.source.bridges i).queued = (s.source.bridges i).queued) ∧
        t'.rank i < t.rank i := by
    obtain ⟨hinv, hfavourable, hqueued⟩ := ht
    obtain ⟨a, t', hstep, hfavourable', hqueued', hlt⟩ := hinv.exists_progress hfavourable hsettled
    exact ⟨a, t', hstep, ⟨hinv.step hstep, hfavourable', hqueued'.trans hqueued⟩, hlt⟩
  obtain ⟨s', hleads, ⟨hinv, hfavourable, hqueued⟩, hsettled⟩ :=
    TransitionSystem.exists_leads_of_progress (rank i) hprogress ⟨h, hfavourable, rfl⟩
  exact ⟨s', hleads, hinv, hfavourable, hqueued, hsettled⟩

/-- A source, the connection and an importer after a run, with the topics of bridge `i`
imported from the start. -/
structure Linked (traits : MessageTraits Val) (options : ℕ → NetworkBridgeOptions)
    (defaultPublisherId : ℕ → BitVec 64) (importOptions : NetworkBridgeOptions) (i : ℕ)
    (s s' : LinkState Tid Val) : Prop where
  init : (linkSystem traits options defaultPublisherId importOptions i).init s
  leads : (linkSystem traits options defaultPublisherId importOptions i).Leads s s'
  favourable : s'.source.Favourable traits i s.destination.bridge.imports

structure ImportedInOrder (traits : MessageTraits Val) (options : ℕ → NetworkBridgeOptions)
    (defaultPublisherId : ℕ → BitVec 64) (importOptions : NetworkBridgeOptions) (i : ℕ)
    (s : LinkState Tid Val) : Prop where
  /-- Every queued frame has been received, is being received or is on its way. -/
  conserved : (s.source.bridges i).queued.map ExportedFrame.frame =
    s.received.map Prod.fst ++ (s.receiving.map ReceiveCall.frame).toList ++ s.inTransit ++
      (s.source.bridges i).bridge.outbound.queue
  /-- Every `receive_frame` returned `true`, and the filter has rejected no frame. -/
  imported : ∀ r ∈ s.received, r.2 = true
  accepted : ∀ v ∈ s.destination.history.verdicts,
    v.1.publisherId = s.publisherId i → v.2 = true
  /-- The handlers got exactly these frames, each once. -/
  handled : s.destination.history.entered.filter (fun f => f.publisherId = s.publisherId i) =
    s.received.map Prod.fst ++ s.receiving.elim [] ReceiveCall.entered
  /-- The queued frames of a topic are those of its export subscription, in the order in which
  the messages came to its callback. -/
  ordered : ∀ block e, s.source.exports block = some e → e.bridge = i →
    ((s.source.bridges i).queued.map ExportedFrame.frame).filter
        (fun f => f.topic = e.networkTopic) =
      ((s.source.bridges i).queued.filter fun x => x.block = block).map ExportedFrame.frame ∧
    (messagesOf (s.source.bridges i).queued block).Sublist (s.source.bus.startedOf block)
  made : ∀ x ∈ (s.source.bridges i).queued, s.source.MadeFor traits i x
  /-- Nothing is stuck: all queued frames can still be imported. -/
  complete : ∃ s', (linkSystem traits options defaultPublisherId importOptions i).Leads s s' ∧
    (s'.source.bridges i).queued = (s.source.bridges i).queued ∧
    s'.received = (s.source.bridges i).queued.map fun x => (x.frame, true)

/-- Frames of one topic come from one export subscription. -/
theorem filter_topic (h : (bridgeNodeSystem traits options defaultPublisherId).Reachable s.source)
    (hfavourable : s.source.Favourable traits i imports) {block : ℕ} {e : ExportLambda Ty}
    (he : s.source.exports block = some e) (hbridge : e.bridge = i) :
    ((s.source.bridges i).queued.map ExportedFrame.frame).filter
        (fun f => f.topic = e.networkTopic) =
      ((s.source.bridges i).queued.filter fun x => x.block = block).map ExportedFrame.frame := by
  rw [List.filter_map]
  apply congrArg
  apply List.filter_congr
  intro x hx
  obtain ⟨e', _, _, he', hbridge', -, hframe⟩ :=
    ((BridgeNodeState.exportInvariant_of_reachable h).flow i).made x (.inr (.inr hx))
  obtain ⟨payload, -, hframe⟩ := MessageTraits.makeFrame_eq_ok hframe
  have htopic : x.frame.topic = e'.networkTopic := by rw [hframe]
  apply decide_eq_decide.mpr
  constructor
  · intro hsame
    exact hfavourable.distinct _ _ e' e he' he hbridge' hbridge (htopic.symm.trans hsame)
  · rintro rfl
    cases he.symm.trans he'
    exact htopic

theorem LinkInvariant.received_of_settled
    (h : s.LinkInvariant traits options defaultPublisherId importOptions i imports)
    (hfavourable : s.source.Favourable traits i imports) (hsettled : s.Settled i) :
    s.received = (s.source.bridges i).queued.map fun x => (x.frame, true) := by
  obtain ⟨hqueue, htransit, hreceiving⟩ := hsettled
  obtain ⟨hsent, hresults, -⟩ := h.delivered hfavourable
  have hqueued := BridgeNodeState.queueInvariant_of_reachable h.source i
  rw [hqueue, List.append_nil, hsent, hreceiving, htransit] at hqueued
  have hfst : s.received.map Prod.fst = (s.source.bridges i).queued.map ExportedFrame.frame := by
    simpa using hqueued.symm
  calc s.received = s.received.map fun r => (r.1, true) := by
        refine (List.map_id _).symm.trans (List.map_congr_left fun r hr => ?_)
        exact Prod.ext rfl (hresults r hr)
    _ = (s.received.map Prod.fst).map fun f => (f, true) := by
        rw [List.map_map]
        rfl
    _ = (s.source.bridges i).queued.map fun x => (x.frame, true) := by
        rw [hfst, List.map_map]
        rfl

/-- Delivery from bridge to bridge over one connection: whatever the publishers, the callbacks
and the connection do, the frames of each topic are imported once and in order. -/
theorem bridge_to_bridge_delivery
    (h : Linked traits options defaultPublisherId importOptions i s s') :
    s'.ImportedInOrder traits options defaultPublisherId importOptions i := by
  have hinv := LinkInvariant.of_reachable h.leads h.init
  obtain ⟨hsent, hresults, -, hverdicts, hentered⟩ := hinv.delivered h.favourable
  have hexports := BridgeNodeState.exportInvariant_of_reachable hinv.source
  refine ⟨?_, hresults, ?_, hentered, ?_, ?_, ?_⟩
  · rw [BridgeNodeState.queueInvariant_of_reachable hinv.source i, hsent]
  · intro v hv hid
    have hmem : v ∈ s'.destination.verdictsOf (s'.publisherId i) :=
      List.mem_filter.mpr ⟨hv, decide_eq_true hid⟩
    rw [hverdicts] at hmem
    obtain ⟨f, -, rfl⟩ := List.mem_map.mp hmem
    rfl
  · intro block e he hbridge
    exact ⟨filter_topic hinv.source h.favourable he hbridge,
      hexports.logs.queued.begun i block e he⟩
  · intro x hx
    exact (hexports.flow i).made x (.inr (.inr hx))
  · obtain ⟨t, hleads, hinv', hfavourable', hqueued, hsettled⟩ :=
      hinv.exists_settled h.favourable
    exact ⟨t, hleads, hqueued, by
      rw [hinv'.received_of_settled hfavourable' hsettled, hqueued]⟩

/-- Two topics: the frame that was numbered first is queued second, and both are imported. -/
theorem bridge_to_bridge_delivery_crossed :
    let traits : MessageTraits (fun _ : Fin 2 => ℕ) :=
      ⟨fun τ => BitVec.ofNat 32 τ, fun _ => 9, fun _ n => .ok [BitVec.ofNat 8 n]⟩
    let options : ℕ → NetworkBridgeOptions := fun _ => { publisherId := 7 }
    ∃ s' : LinkState (Fin 4) fun _ : Fin 2 => ℕ,
      s'.received.map (fun r => r.1.sequence) = [1, 0] ∧
      s'.ImportedInOrder traits options (fun _ => 1) {} 0 := by
  intro traits options
  let importer : ImportState := { bridge := {
    maxDedupEntries := 4096, maxDedupEntries_pos := by decide
    imports := AList.insert [2] ⟨1, 9⟩ (AList.insert [1] ⟨0, 9⟩ ∅) } }
  let s : LinkState (Fin 4) fun _ : Fin 2 => ℕ :=
    { source := { bridges := fun _ => { bridge := { publisherId := 7, outbound := {
        capacity := 1024 } } } }, destination := importer }
  have himporter : (importSystem {}).Reachable importer := by
    have himports : (importSystem {}).run
        { bridge := { maxDedupEntries := 4096, maxDedupEntries_pos := by decide } }
        [.addImport [1] ⟨0, 9⟩, .addImport [2] ⟨1, 9⟩] = some importer := rfl
    have hfresh : (importSystem {}).Reachable
        { bridge := { maxDedupEntries := 4096, maxDedupEntries_pos := by decide } } :=
      .init ⟨_, rfl, rfl⟩
    exact hfresh.run himports
  have hinit : (linkSystem traits options (fun _ => 1) {} 0).init s := by
    refine ⟨⟨_, fun _ => rfl, rfl⟩, himporter, rfl, nofun, nofun, rfl, rfl, rfl⟩
  have hp : ((linkSystem traits options (fun _ => 1) {} 0).run s
      [.source (.exportTopic 0 0 [1] [] 0 {}), .source (.createSubscription 0),
        .source (.addExport 0), .source (.exportTopic 0 0 [2] [] 1 {}),
        .source (.createSubscription 0), .source (.addExport 0),
        .source (.bus (.publish 1 [1] 0 9 ⟨0, 5⟩ false [0])), .source (.bus (.lockDispatch 1)),
        .source (.bus (.enqueue 1)), .source (.bus (.post 1 .accepted)),
        .source (.bus (.unlockDispatch 1)),
        .source (.bus (.publish 1 [2] 1 9 ⟨1, 6⟩ false [1])), .source (.bus (.lockDispatch 1)),
        .source (.bus (.enqueue 1)), .source (.bus (.post 1 .accepted)),
        .source (.bus (.unlockDispatch 1)),
        .source (.bus (.startDrain 2 0)), .source (.bus (.startDrain 3 1)),
        .source (.bus (.pop 2)), .source (.bus (.pop 3)), .source (.makeFrame 2 100),
        .source (.makeFrame 3 100), .source (.emitFrame 3), .source (.push 3),
        .source (.emitFrame 2), .source (.push 2), .send, .send, .receive, .proceed, .proceed,
        .proceed, .proceed, .receive, .proceed, .proceed, .proceed, .proceed]).map
      (fun s' => s'.received.map (fun r => r.1.sequence) == [1, 0] &&
        s'.source.bus.history.created == 2 && s'.source.exports 0 == some ⟨0, [1], 0⟩ &&
        s'.source.exports 1 == some ⟨0, [2], 1⟩ && (s'.source.bridges 0).draws == 2 &&
        (s'.source.bridges 0).bridge.exportCancellers == [0, 1]) =
      some true := by decide +kernel
  obtain ⟨s', hrun, hp⟩ := Option.map_eq_some_iff.mp hp
  simp only [Bool.and_eq_true, beq_iff_eq] at hp
  obtain ⟨⟨⟨⟨⟨hsequences, hcreated⟩, hfirst⟩, hsecond⟩, hdraws⟩, hcancellers⟩ := hp
  have hleads : (linkSystem traits options (fun _ => 1) {} 0).Leads s s' := ⟨_, hrun⟩
  have hsource := (LinkInvariant.of_reachable hleads hinit).source
  have hinv := BridgeNodeState.exportInvariant_of_reachable hsource
  have hexports {block : ℕ} {e : ExportLambda (Fin 2)} (he : s'.source.exports block = some e) :
      block = 0 ∧ e = ⟨0, [1], 0⟩ ∨ block = 1 ∧ e = ⟨0, [2], 1⟩ := by
    have hlt : block < 2 := by
      by_contra hge
      have hnone := hinv.registered.created hinv.registry block (by omega)
      rw [he] at hnone
      cases hnone
    interval_cases block
    · rw [hfirst] at he
      exact .inl ⟨rfl, (Option.some.inj he).symm⟩
    · rw [hsecond] at he
      exact .inr ⟨rfl, (Option.some.inj he).symm⟩
  refine ⟨s', hsequences, bridge_to_bridge_delivery ⟨hinit, hleads, .of_registered hsource ?_ ?_ ?_⟩⟩
  · intro block e he _
    rw [hcancellers]
    rcases hexports he with ⟨rfl, -⟩ | ⟨rfl, -⟩ <;> simp
  · intro block e he _
    rcases hexports he with ⟨rfl, rfl⟩ | ⟨rfl, rfl⟩
    · rfl
    · rfl
  · rw [hdraws]
    decide

end LinkState
end RobotMiddleware
