import RobotMiddleware.BridgeNodeSteps
import RobotMiddleware.SharedCounter

/-! The frames of a bridge: which callback makes them, and how they are numbered. One export
subscription makes one frame at a time, so its frames are queued with increasing numbers,
whatever the other subscriptions of the bridge do. -/
namespace RobotMiddleware

def LambdaState.frame : LambdaState → Option Frame
  | .built frame | .pushing frame => some frame
  | .entered | .ended _ => none

/-- The subscriptions of a bridge draw from its one counter. -/
def exportCounter {Tid Ty : Type} {Val : Ty → Type} : SharedCounter ℕ (ExportedFrame Tid Val) where
  key x := x.block
  number x := x.frame.sequence.toNat

/-- What is in a frame that was made. -/
theorem MessageTraits.makeFrame_eq_ok {Ty : Type} {Val : Ty → Type} {traits : MessageTraits Val}
    {topic : Bytes} {τ : Ty} {message : Val τ} {sequence publisherId now : BitVec 64}
    {frame : Frame}
    (h : traits.makeFrame topic τ message sequence publisherId now = .ok frame) :
    ∃ payload, traits.serialize τ message = .ok payload ∧ frame = {
      typeId := traits.typeId τ, schemaHash := traits.schemaHash τ, sequence := sequence
      publisherId := publisherId, sendTimeNs := now, topic := topic, payload := payload } := by
  cases hserialize : traits.serialize τ message with
  | error e =>
    rw [makeFrame, hserialize] at h
    cases h
  | ok payload =>
    rw [makeFrame, hserialize] at h
    change RobotMiddleware.makeFrame topic ⟨traits.typeId τ, traits.schemaHash τ⟩ payload sequence
      publisherId now = .ok frame at h
    unfold RobotMiddleware.makeFrame at h
    split at h
    · cases h
    · split at h
      · cases h
      · cases h
        exact ⟨payload, rfl, rfl⟩

namespace BridgeNodeState
variable {Tid Ty : Type} {Val : Ty → Type} [DecidableEq Tid] {traits : MessageTraits Val}
  {options : ℕ → NetworkBridgeOptions} {defaultPublisherId : ℕ → BitVec 64}
  {s s' : BridgeNodeState Tid Val} {a : BridgeNodeAction Tid Val} {t u : Tid} {i block : ℕ}
  {e : ExportLambda Ty} {p : Publication Tid Val} {x : ExportedFrame Tid Val}

/-- The frame of bridge `i` that the thread has made and not handed over yet. -/
def making (s : BridgeNodeState Tid Val) (i : ℕ) (t : Tid) : Option (ExportedFrame Tid Val) :=
  (s.inLambda t).bind fun (block, e, p) =>
    if e.bridge = i then (s.lambdas t).frame.map fun frame => ⟨block, p, frame⟩ else none

omit [DecidableEq Tid] in
theorem making_eq_some : s.making i t = some x ↔ ∃ e, s.inLambda t = some (x.block, e, x.publication) ∧
    e.bridge = i ∧ (s.lambdas t).frame = some x.frame := by
  constructor
  · intro h
    obtain ⟨⟨block, e, p⟩, hlambda, h⟩ := Option.bind_eq_some_iff.mp h
    obtain ⟨hbridge, h⟩ := Option.ite_none_right_eq_some.mp h
    obtain ⟨frame, hframe, rfl⟩ := Option.map_eq_some_iff.mp h
    exact ⟨e, hlambda, hbridge, hframe⟩
  · rintro ⟨e, hlambda, hbridge, hframe⟩
    simp only [making, hlambda, Option.bind_some, hbridge, if_true, hframe, Option.map_some]

omit [DecidableEq Tid] in
theorem making_congr (hlambda : s'.inLambda t = s.inLambda t)
    (hstate : s'.lambdas t = s.lambdas t) : s'.making i t = s.making i t := by
  rw [making, making, hlambda, hstate]

omit [DecidableEq Tid] in
theorem making_eq_none (h : (s.lambdas t).frame = none) : s.making i t = none := by
  cases hmaking : s.making i t with
  | none => rfl
  | some x =>
    obtain ⟨e, -, -, hframe⟩ := making_eq_some.mp hmaking
    rw [h] at hframe
    cases hframe

variable [DecidableEq Ty]

/-- An export subscription has the type of its lambda and takes no remote messages. -/
def ExportsRegistered (traits : MessageTraits Val) (s : BridgeNodeState Tid Val) : Prop :=
  ∀ block e, s.exports block = some e → ∃ sub, s.bus.boxes block = some sub ∧
    sub.contract = traits.contract e.localType ∧ sub.options.receiveRemote = false

def LambdasIdle (s : BridgeNodeState Tid Val) : Prop :=
  ∀ t, s.inLambda t = none → s.lambdas t = .entered

omit [DecidableEq Ty] in
theorem ExportsRegistered.created (h : s.ExportsRegistered traits)
    (hregistry : s.bus.RegistryInvariant) : s.ExportsCreated := by
  intro block hle
  cases he : s.exports block with
  | none => rfl
  | some e =>
    obtain ⟨sub, hsub, -⟩ := h block e he
    rw [hregistry.fresh block hle] at hsub
    cases hsub

theorem ExportsRegistered.of_bus (h : s.ExportsRegistered traits)
    (hregistry : s.bus.RegistryInvariant) {act : BusAction Tid Val}
    (hbus : s.bus.step act = some s'.bus) (hexports : s'.exports = s.exports) :
    s'.ExportsRegistered traits := by
  intro block e he
  obtain ⟨sub, hsub, hcontract, hremote⟩ := h block e (hexports ▸ he)
  obtain ⟨state, hbox, -⟩ := (BusState.step_flow hbus).box (hregistry.fresh _ le_rfl) hsub
  exact ⟨_, hbox, hcontract, hremote⟩

theorem ExportsRegistered.step (h : s.ExportsRegistered traits)
    (hregistry : s.bus.RegistryInvariant) (hs : s.step traits a = some s') :
    s'.ExportsRegistered traits := by
  cases step_view hs with
  | bus act bus hallows hbus => exact h.of_bus hregistry hbus rfl
  | subscribed t i localTopic networkTopic τ options bus u id hcall hbus hlast =>
    intro block e he
    by_cases hnew : block = s.bus.history.created
    · -- the callback is registered together with the mailbox
      subst hnew
      have hexport := (Function.update_self ..).symm.trans he
      cases hexport
      cases BusState.step_view hbus with
      | subscribed => exact ⟨_, Function.update_self .., rfl, rfl⟩
      | threw =>
        simp only [BusState.addReturn, List.getLast?_concat, Option.some.injEq, Prod.mk.injEq,
          reduceCtorEq, and_false] at hlast
      | owner _ _ _ _ _ _ _ howner => cases howner
      | drained _ _ _ _ _ _ _ hdrain => cases hdrain
    · obtain ⟨sub, hsub, hcontract, hremote⟩ :=
        h block e ((Function.update_of_ne hnew ..).symm.trans he)
      obtain ⟨state, hbox, -⟩ := (BusState.step_flow hbus).box (hregistry.fresh _ le_rfl) hsub
      exact ⟨_, hbox, hcontract, hremote⟩
  | busRefused _ t act bus u e hact hregistryCall hbus => exact h.of_bus hregistry hbus rfl
  | cancelled t localTopic block id e bus hcall hbus => exact h.of_bus hregistry hbus rfl
  | unsubscribed t localTopic block id e bus hcall hbus => exact h.of_bus hregistry hbus rfl
  | advertised t i remoteTopic destination τ bus u hcall hbus => exact h.of_bus hregistry hbus rfl
  | lambdaEnded t block e p threw bus hlambda hended hbus => exact h.of_bus hregistry hbus rfl
  | _ => exact h

theorem LambdasIdle.step (h : s.LambdasIdle) (hs : ExportView traits s s') : s'.LambdasIdle := by
  -- the thread is in its callback before and after
  have hinside {state : LambdaState} {t : Tid} (hbus : s'.bus = s.bus)
      (hexports : s'.exports = s.exports) (hlambda : s.inLambda t ≠ none)
      (hlambdas : s'.lambdas = Function.update s.lambdas t state) : s'.LambdasIdle := by
    intro u hu
    rw [inLambda_congr hbus hexports] at hu
    have hut : u ≠ t := fun hut => hlambda (hut ▸ hu)
    rw [hlambdas, Function.update_of_ne hut]
    exact h u hu
  cases hs with
  | quiet hlambda hlambdas =>
    intro u hu
    rw [hlambdas]
    exact h u (hlambda u ▸ hu)
  | began t block e p hnone hlambda hlambdas =>
    intro u hu
    rw [hlambda] at hu
    split at hu
    case isTrue => cases hu
    case isFalse => exact hlambdas ▸ h u hu
  | made t now block e p message state hlambda _ _ _ hbus hexports hlambdas =>
    exact hinside hbus hexports (by simp [hlambda]) hlambdas
  | emitted t block e p frame state hlambda _ _ hbus hexports hlambdas =>
    exact hinside hbus hexports (by simp [hlambda]) hlambdas
  | pushed t block e p frame queued hlambda _ _ hbus hexports hlambdas =>
    exact hinside hbus hexports (by simp [hlambda]) hlambdas
  | ended t threw hended hlambda hlambdas =>
    intro u hu
    rw [hlambdas]
    by_cases hut : u = t
    · rw [hut, Function.update_self]
    · rw [hlambda, if_neg hut] at hu
      rw [Function.update_of_ne hut]
      exact h u hu

def MadeFor (traits : MessageTraits Val) (s : BridgeNodeState Tid Val) (i : ℕ)
    (x : ExportedFrame Tid Val) : Prop :=
  ∃ e message now, s.exports x.block = some e ∧ e.bridge = i ∧
    staticPointerCast e.localType x.publication.message = some message ∧
      traits.makeFrame e.networkTopic e.localType message x.frame.sequence
        (s.bridges i).bridge.publisherId now = .ok x.frame

inductive BridgeView (traits : MessageTraits Val) (s s' : BridgeNodeState Tid Val) (i : ℕ) : Prop
  | kept : (∀ t, s'.making i t = s.making i t) → (s'.bridges i).flow = (s.bridges i).flow →
      BridgeView traits s s' i
  | wasted : (∀ t, s'.making i t = s.making i t) →
      (s'.bridges i).flow = (s.bridges i).flow.draw → BridgeView traits s s' i
  | drawn (t : Tid) (e : ExportLambda Ty) (x : ExportedFrame Tid Val) :
      s.inLambda t = some (x.block, e, x.publication) → s.MadeFor traits i x →
      x.frame.sequence = (s.bridges i).bridge.nextSequence →
      (∀ u, s'.making i u = if u = t then some x else s.making i u) →
      (s'.bridges i).flow = (s.bridges i).flow.draw → BridgeView traits s s' i
  | emitted (t : Tid) (x : ExportedFrame Tid Val) : s.making i t = some x →
      (∀ u y, s'.making i u = some y → s.making i u = some y) →
      (s'.bridges i).flow =
        { (s.bridges i).flow with emitted := (s.bridges i).emitted ++ [x] } →
      BridgeView traits s s' i
  | pushed (t : Tid) (x : ExportedFrame Tid Val) (queued : List (ExportedFrame Tid Val)) :
      s.making i t = some x → queued = [x] ∨ queued = [] →
      (∀ u, s'.making i u = if u = t then none else s.making i u) →
      (s'.bridges i).flow =
        { (s.bridges i).flow with queued := (s.bridges i).queued ++ queued } →
      BridgeView traits s s' i

omit [DecidableEq Ty] in
/-- Only thread `t` moves on in its callback. -/
theorem making_of_update {state : LambdaState} (hbus : s'.bus = s.bus)
    (hexports : s'.exports = s.exports)
    (hlambdas : s'.lambdas = Function.update s.lambdas t state) (i : ℕ) (u : Tid) :
    s'.making i u = if u = t then s'.making i t else s.making i u := by
  split
  case isTrue hut => rw [hut]
  case isFalse hut =>
    apply making_congr (inLambda_congr hbus hexports u)
    rw [hlambdas, Function.update_of_ne hut]

theorem bridge_view (hidle : s.LambdasIdle) (hs : ExportView traits s s') (i : ℕ) :
    BridgeView traits s s' i := by
  cases hs with
  | quiet hlambda hlambdas hflow =>
    exact .kept (fun t => making_congr (hlambda t) (by rw [hlambdas])) (hflow i)
  | began t block e p hnone hlambda hlambdas hflow =>
    refine .kept (fun u => ?_) (hflow i)
    by_cases hut : u = t
    · have hentered : s.lambdas u = .entered := hidle u (hut ▸ hnone)
      have hbefore : s.making i u = none := making_eq_none (by rw [hentered]; rfl)
      have hafter : s'.making i u = none := making_eq_none (by rw [hlambdas, hentered]; rfl)
      exact hafter.trans hbefore.symm
    · exact making_congr (by rw [hlambda, if_neg hut]) (by rw [hlambdas])
  | ended t threw hended hlambda hlambdas hflow =>
    refine .kept (fun u => ?_) (hflow i)
    by_cases hut : u = t
    · have hbefore : s.making i u = none := making_eq_none (by rw [hut, hended]; rfl)
      have hafter : s'.making i u = none :=
        making_eq_none (by rw [hlambdas, hut, Function.update_self]; rfl)
      exact hafter.trans hbefore.symm
    · exact making_congr (by rw [hlambda, if_neg hut])
        (by rw [hlambdas, Function.update_of_ne hut])
  | made t now block e p message state hlambda hentered hmessage hstate hbus hexports hlambdas
      hflow =>
    have hmaking := making_of_update hbus hexports hlambdas i
    have hidle : s.making i t = none := making_eq_none (by rw [hentered]; rfl)
    have hlambda' : s'.inLambda t = some (block, e, p) :=
      (inLambda_congr hbus hexports t).trans hlambda
    have hself : s'.lambdas t = state := by rw [hlambdas, Function.update_self]
    have hsame (hnone : s'.making i t = none) (u : Tid) : s'.making i u = s.making i u := by
      rw [hmaking]
      split
      case isTrue hut => rw [hnone, hut, hidle]
      case isFalse => rfl
    by_cases hi : i = e.bridge
    · subst hi
      have hdraw := (hflow e.bridge).trans (if_pos rfl)
      rcases hstate with ⟨frame, rfl, hframe⟩ | rfl
      · have hmade : s'.making e.bridge t = some ⟨block, p, frame⟩ :=
          making_eq_some.mpr ⟨e, hlambda', rfl, by rw [hself]; rfl⟩
        have hsequence : frame.sequence = (s.bridges e.bridge).bridge.nextSequence := by
          obtain ⟨payload, -, rfl⟩ := MessageTraits.makeFrame_eq_ok hframe
          rfl
        refine .drawn t e ⟨block, p, frame⟩ hlambda ⟨e, message, now, ?_, rfl, hmessage, ?_⟩
          hsequence (fun u => ?_) hdraw
        · exact (inLambda_eq_some.mp hlambda).2
        · rw [hsequence]
          exact hframe
        · rw [hmaking, hmade]
      · refine .wasted (hsame ?_) hdraw
        exact making_eq_none (by rw [hself]; rfl)
    · -- the frame is that of another bridge
      refine .kept (hsame ?_) ((hflow i).trans (if_neg hi))
      simp only [making, hlambda', Option.bind_some, if_neg (Ne.symm hi)]
  | emitted t block e p frame state hlambda hbuilt hstate hbus hexports hlambdas hflow =>
    have hmaking := making_of_update hbus hexports hlambdas i
    have hlambda' := (inLambda_congr hbus hexports t).trans hlambda
    have hself : s'.lambdas t = state := by rw [hlambdas, Function.update_self]
    have hbefore : s.making i t = if e.bridge = i then some ⟨block, p, frame⟩ else none := by
      simp only [making, hlambda, hbuilt, Option.bind_some, LambdaState.frame, Option.map_some]
    have hafter : s'.making i t = s.making i t ∨ s'.making i t = none := by
      rcases hstate with rfl | rfl
      · left
        rw [making, making, hlambda', hlambda, hself, hbuilt]
        rfl
      · exact .inr (making_eq_none (by rw [hself]; rfl))
    by_cases hi : i = e.bridge
    · subst hi
      refine .emitted t ⟨block, p, frame⟩ (hbefore.trans (if_pos rfl)) (fun u y hy => ?_)
        ((hflow e.bridge).trans (if_pos rfl))
      rw [hmaking] at hy
      split at hy
      case isTrue hut =>
        rcases hafter with hsame | hnone
        · rw [hut, ← hsame, hy]
        · rw [hnone] at hy
          cases hy
      case isFalse => exact hy
    · refine .kept (fun u => ?_) ((hflow i).trans (if_neg hi))
      have hnone := hbefore.trans (if_neg (Ne.symm hi))
      rw [hmaking]
      split
      case isTrue hut =>
        rw [hut, hnone]
        exact hafter.elim (fun hsame => hsame.trans hnone) id
      case isFalse => rfl
  | pushed t block e p frame queued hlambda hpushing hqueued hbus hexports hlambdas hflow =>
    have hmaking := making_of_update hbus hexports hlambdas i
    have hbefore : s.making i t = if e.bridge = i then some ⟨block, p, frame⟩ else none := by
      simp only [making, hlambda, hpushing, Option.bind_some, LambdaState.frame, Option.map_some]
    have hafter : s'.making i t = none := by
      apply making_eq_none
      rw [hlambdas, Function.update_self]
      rfl
    by_cases hi : i = e.bridge
    · subst hi
      refine .pushed t ⟨block, p, frame⟩ queued (hbefore.trans (if_pos rfl)) hqueued
        (fun u => ?_) ((hflow e.bridge).trans (if_pos rfl))
      rw [hmaking, hafter]
    · refine .kept (fun u => ?_) ((hflow i).trans (if_neg hi))
      rw [hmaking]
      split
      case isTrue hut => rw [hafter, hut, hbefore.trans (if_neg (Ne.symm hi))]
      case isFalse => rfl

omit [DecidableEq Tid] in
/-- The exports and the publisher ids are the same after a step. -/
theorem MadeFor.mono (h : s.MadeFor traits i x)
    (hexports : ∀ block e, s.exports block = some e → s'.exports block = some e)
    (hflow : (s'.bridges i).flow.publisherId = (s.bridges i).flow.publisherId) :
    s'.MadeFor traits i x := by
  obtain ⟨e, message, now, he, hbridge, hmessage, hframe⟩ := h
  refine ⟨e, message, now, hexports _ _ he, hbridge, hmessage, ?_⟩
  have hpublisher : (s'.bridges i).bridge.publisherId = (s.bridges i).bridge.publisherId := hflow
  rw [hpublisher]
  exact hframe

theorem exports_of_view (hs : ExportView traits s s') (he : s.exports block = some e) :
    s'.exports block = some e := by
  cases hs with
  | quiet _ _ _ hexports => exact hexports block e he
  | began _ _ _ _ _ _ _ _ hexports => exact hexports ▸ he
  | made _ _ _ _ _ _ _ _ _ _ _ _ hexports => exact hexports ▸ he
  | emitted _ _ _ _ _ _ _ _ _ _ hexports => exact hexports ▸ he
  | pushed _ _ _ _ _ _ _ _ _ _ hexports => exact hexports ▸ he
  | ended _ _ _ _ _ _ hexports => exact hexports ▸ he

theorem publisherId_of_view (hs : BridgeView traits s s' i) :
    (s'.bridges i).flow.publisherId = (s.bridges i).flow.publisherId := by
  cases hs with
  | kept _ hflow => rw [hflow]
  | wasted _ hflow => exact (congrArg ExportFlow.publisherId hflow :)
  | drawn _ _ _ _ _ _ _ hflow => exact (congrArg ExportFlow.publisherId hflow :)
  | emitted _ _ _ _ hflow => exact (congrArg ExportFlow.publisherId hflow :)
  | pushed _ _ _ _ _ _ hflow => exact (congrArg ExportFlow.publisherId hflow :)

def Carries (s : BridgeNodeState Tid Val) (i : ℕ) (x : ExportedFrame Tid Val) : Prop :=
  (∃ t, s.making i t = some x) ∨ x ∈ (s.bridges i).emitted ∨ x ∈ (s.bridges i).queued

/-- Frames come from nowhere else than `make_frame`. -/
theorem carries_of_view (hs : BridgeView traits s s' i) (h : s'.Carries i x) :
    s.Carries i x ∨ s.MadeFor traits i x := by
  -- a frame in a log that has not changed
  have hlogs (hemitted : (s'.bridges i).emitted = (s.bridges i).emitted)
      (hqueued : (s'.bridges i).queued = (s.bridges i).queued)
      (hmaking : ∀ t, s'.making i t = some x → s.Carries i x ∨ s.MadeFor traits i x) :
      s.Carries i x ∨ s.MadeFor traits i x := by
    rcases h with ⟨t, ht⟩ | hx | hx
    · exact hmaking t ht
    · exact .inl (.inr (.inl (hemitted ▸ hx)))
    · exact .inl (.inr (.inr (hqueued ▸ hx)))
  cases hs with
  | kept hmaking hflow =>
    exact hlogs (congrArg ExportFlow.emitted hflow :) (congrArg ExportFlow.queued hflow :)
      fun t ht => .inl (.inl ⟨t, hmaking t ▸ ht⟩)
  | wasted hmaking hflow =>
    exact hlogs (congrArg ExportFlow.emitted hflow :) (congrArg ExportFlow.queued hflow :)
      fun t ht => .inl (.inl ⟨t, hmaking t ▸ ht⟩)
  | drawn t e y hlambda hmade hsequence hmaking hflow =>
    apply hlogs (congrArg ExportFlow.emitted hflow :) (congrArg ExportFlow.queued hflow :)
    intro u hu
    rw [hmaking] at hu
    split at hu
    case isTrue => exact .inr (Option.some.inj hu ▸ hmade)
    case isFalse => exact .inl (.inl ⟨u, hu⟩)
  | emitted t y hy hmaking hflow =>
    have hemitted : (s'.bridges i).emitted = (s.bridges i).emitted ++ [y] :=
      (congrArg ExportFlow.emitted hflow :)
    have hqueued : (s'.bridges i).queued = (s.bridges i).queued :=
      (congrArg ExportFlow.queued hflow :)
    left
    rcases h with ⟨u, hu⟩ | hx | hx
    · exact .inl ⟨u, hmaking u x hu⟩
    · rw [hemitted] at hx
      rcases List.mem_append.mp hx with hx | hx
      · exact .inr (.inl hx)
      · exact .inl ⟨t, List.mem_singleton.mp hx ▸ hy⟩
    · exact .inr (.inr (hqueued ▸ hx))
  | pushed t y queued hy hcases hmaking hflow =>
    have hemitted : (s'.bridges i).emitted = (s.bridges i).emitted :=
      (congrArg ExportFlow.emitted hflow :)
    have hqueued : (s'.bridges i).queued = (s.bridges i).queued ++ queued :=
      (congrArg ExportFlow.queued hflow :)
    left
    rcases h with ⟨u, hu⟩ | hx | hx
    · rw [hmaking] at hu
      exact .inl ⟨u, (Option.ite_none_left_eq_some.mp hu).2⟩
    · exact .inr (.inl (hemitted ▸ hx))
    · rw [hqueued] at hx
      rcases List.mem_append.mp hx with hx | hx
      · exact .inr (.inr hx)
      · rcases hcases with rfl | rfl
        · exact .inl ⟨t, List.mem_singleton.mp hx ▸ hy⟩
        · cases hx

/-- The counter goes up with the number of draws, or both stay. -/
theorem counted_of_view (hs : BridgeView traits s s' i)
    (h : (s.bridges i).bridge.nextSequence = BitVec.ofNat 64 (s.bridges i).draws) :
    (s'.bridges i).bridge.nextSequence = BitVec.ofNat 64 (s'.bridges i).draws := by
  have hdrawn (hflow : (s'.bridges i).flow = (s.bridges i).flow.draw) :
      (s'.bridges i).bridge.nextSequence = BitVec.ofNat 64 (s'.bridges i).draws := by
    have hnext : (s'.bridges i).bridge.nextSequence = (s.bridges i).bridge.nextSequence + 1 :=
      (congrArg ExportFlow.nextSequence hflow :)
    have hdraws : (s'.bridges i).draws = (s.bridges i).draws + 1 :=
      (congrArg ExportFlow.draws hflow :)
    rw [hnext, hdraws, h, BitVec.ofNat_add]
    rfl
  have hsame
      (hnext : (s'.bridges i).flow.nextSequence = (s.bridges i).flow.nextSequence)
      (hdraws : (s'.bridges i).flow.draws = (s.bridges i).flow.draws) :
      (s'.bridges i).bridge.nextSequence = BitVec.ofNat 64 (s'.bridges i).draws :=
    hnext.trans (h.trans (congrArg _ hdraws.symm))
  cases hs with
  | kept _ hflow => exact hsame (by rw [hflow]) (by rw [hflow])
  | wasted _ hflow => exact hdrawn hflow
  | drawn _ _ _ _ _ _ _ hflow => exact hdrawn hflow
  | emitted _ _ _ _ hflow => exact hsame (by rw [hflow]) (by rw [hflow])
  | pushed _ _ _ _ _ _ hflow => exact hsame (by rw [hflow]) (by rw [hflow])

/-- While the counter has not come round, its number is that of the draws. -/
theorem ordered_of_view (hregistry : s.bus.RegistryInvariant)
    (hcounted : (s.bridges i).bridge.nextSequence = BitVec.ofNat 64 (s.bridges i).draws)
    (h : (s.bridges i).draws ≤ 2 ^ 64 →
      exportCounter.Ordered (s.making i) (s.bridges i).queued (s.bridges i).draws)
    (hs : BridgeView traits s s' i) (hle : (s'.bridges i).draws ≤ 2 ^ 64) :
    exportCounter.Ordered (s'.making i) (s'.bridges i).queued (s'.bridges i).draws := by
  cases hs with
  | kept hmaking hflow =>
    have hdraws : (s'.bridges i).draws = (s.bridges i).draws := (congrArg ExportFlow.draws hflow :)
    have hqueued : (s'.bridges i).queued = (s.bridges i).queued :=
      (congrArg ExportFlow.queued hflow :)
    rw [hdraws] at hle
    rw [hqueued, hdraws]
    exact (h hle).mono (fun t x hx => hmaking t ▸ hx) le_rfl
  | wasted hmaking hflow =>
    have hdraws : (s'.bridges i).draws = (s.bridges i).draws + 1 :=
      (congrArg ExportFlow.draws hflow :)
    have hqueued : (s'.bridges i).queued = (s.bridges i).queued :=
      (congrArg ExportFlow.queued hflow :)
    have hlt : (s.bridges i).draws < 2 ^ 64 := by omega
    rw [hqueued, hdraws]
    exact (h hlt.le).mono (fun t x hx => hmaking t ▸ hx) (Nat.le_succ _)
  | drawn t e x hlambda hmade hsequence hmaking hflow =>
    have hdraws : (s'.bridges i).draws = (s.bridges i).draws + 1 :=
      (congrArg ExportFlow.draws hflow :)
    have hqueued : (s'.bridges i).queued = (s.bridges i).queued :=
      (congrArg ExportFlow.queued hflow :)
    have hlt : (s.bridges i).draws < 2 ^ 64 := by omega
    have hnumber : x.frame.sequence.toNat = (s.bridges i).draws := by
      rw [hsequence, hcounted, BitVec.toNat_ofNat, Nat.mod_eq_of_lt hlt]
    rw [hqueued, hdraws]
    apply (h hlt.le).draw hnumber hmaking
    intro u y hut hy hkey
    -- a callback of the same block would run on two threads
    obtain ⟨e', hlambda', -⟩ := making_eq_some.mp hy
    have hcallback := (inLambda_eq_some.mp hlambda').1
    have hblock : y.block = x.block := hkey
    rw [hblock] at hcallback
    exact hut (BusState.callback_unique hregistry hcallback (inLambda_eq_some.mp hlambda).1)
  | emitted t x hx hmaking hflow =>
    have hdraws : (s'.bridges i).draws = (s.bridges i).draws := (congrArg ExportFlow.draws hflow :)
    have hqueued : (s'.bridges i).queued = (s.bridges i).queued :=
      (congrArg ExportFlow.queued hflow :)
    rw [hdraws] at hle
    rw [hqueued, hdraws]
    exact (h hle).mono hmaking le_rfl
  | pushed t x queued hx hcases hmaking hflow =>
    have hdraws : (s'.bridges i).draws = (s.bridges i).draws := (congrArg ExportFlow.draws hflow :)
    have hqueued : (s'.bridges i).queued = (s.bridges i).queued ++ queued :=
      (congrArg ExportFlow.queued hflow :)
    rw [hdraws] at hle
    rw [hqueued, hdraws]
    rcases hcases with rfl | rfl
    · exact (h hle).push hx hmaking
    · rw [List.append_nil]
      refine (h hle).mono (fun u y hy => ?_) le_rfl
      rw [hmaking] at hy
      exact (Option.ite_none_left_eq_some.mp hy).2

/-- The counter of bridge `i` is the number of draws modulo 2^64, every frame was made by its
callback, and as long as the counter has not come round the frames are ordered. -/
structure FlowInvariant (traits : MessageTraits Val) (i : ℕ) (s : BridgeNodeState Tid Val) :
    Prop where
  nextSequence : (s.bridges i).bridge.nextSequence = BitVec.ofNat 64 (s.bridges i).draws
  made : ∀ x, s.Carries i x → s.MadeFor traits i x
  ordered : (s.bridges i).draws ≤ 2 ^ 64 →
    exportCounter.Ordered (s.making i) (s.bridges i).queued (s.bridges i).draws

theorem FlowInvariant.step (h : s.FlowInvariant traits i) (hregistry : s.bus.RegistryInvariant)
    (hidle : s.LambdasIdle) (hs : ExportView traits s s') : s'.FlowInvariant traits i := by
  have hview := bridge_view hidle hs i
  refine ⟨counted_of_view hview h.nextSequence, fun x hx => ?_,
    ordered_of_view hregistry h.nextSequence h.ordered hview⟩
  have hmade : s.MadeFor traits i x := (carries_of_view hview hx).elim (h.made x) id
  exact hmade.mono (fun _ _ he => exports_of_view hs he) (publisherId_of_view hview)

end BridgeNodeState
end RobotMiddleware
