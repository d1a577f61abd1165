import RobotMiddleware.BridgeExportFrames
import RobotMiddleware.TopicTypes

/-! The frames of an export subscription in the order of its callbacks. -/
namespace RobotMiddleware

def LambdaState.emits : LambdaState → Bool
  | .entered | .built _ => true
  | .pushing _ | .ended _ => false

def LambdaState.pushes : LambdaState → Bool
  | .entered | .built _ | .pushing _ => true
  | .ended _ => false

def messagesOf {Tid Ty : Type} {Val : Ty → Type} (log : List (ExportedFrame Tid Val))
    (block : ℕ) : List (Publication Tid Val) :=
  (log.filter fun x => x.block = block).map ExportedFrame.publication

section Messages
variable {Tid Ty : Type} {Val : Ty → Type} {log : List (ExportedFrame Tid Val)} {block : ℕ}

theorem messagesOf_append (log' : List (ExportedFrame Tid Val)) :
    messagesOf (log ++ log') block = messagesOf log block ++ messagesOf log' block := by
  rw [messagesOf, List.filter_append, List.map_append, messagesOf, messagesOf]

theorem messagesOf_singleton (x : ExportedFrame Tid Val) :
    messagesOf [x] block = if x.block = block then [x.publication] else [] := by
  by_cases hblock : x.block = block
  · simp [messagesOf, hblock]
  · simp [messagesOf, hblock]

theorem messagesOf_eq_nil (h : ∀ x ∈ log, x.block ≠ block) : messagesOf log block = [] := by
  rw [messagesOf, List.map_eq_nil_iff, List.filter_eq_nil_iff]
  intro x hx
  simpa using h x hx

end Messages

namespace BridgeNodeState
variable {Tid Ty : Type} {Val : Ty → Type} [DecidableEq Tid] {traits : MessageTraits Val}
  {options : ℕ → NetworkBridgeOptions} {defaultPublisherId : ℕ → BitVec 64}
  {s s' : BridgeNodeState Tid Val} {a : BridgeNodeAction Tid Val} {t u : Tid} {i block : ℕ}
  {e : ExportLambda Ty} {p : Publication Tid Val}

/-- Only one thread is in a callback of the block. -/
theorem inLambda_unique (hregistry : s.bus.RegistryInvariant) {e' : ExportLambda Ty}
    {q : Publication Tid Val} (ht : s.inLambda t = some (block, e, p))
    (hu : s.inLambda u = some (block, e', q)) : t = u :=
  BusState.callback_unique hregistry (inLambda_eq_some.mp ht).1 (inLambda_eq_some.mp hu).1

variable [DecidableEq Ty]

/-- The frames of a block in the log of a bridge are of messages whose callbacks have begun, in
that order, and of the callback that still `awaits` its place in the log there is none. -/
structure Tracked (s : BridgeNodeState Tid Val) (log : ℕ → List (ExportedFrame Tid Val))
    (awaits : LambdaState → Bool) : Prop where
  exported : ∀ i, ∀ x ∈ log i, s.exports x.block ≠ none
  begun : ∀ i block e, s.exports block = some e →
    (messagesOf (log i) block).Sublist (s.bus.startedOf block)
  current : ∀ t block e p, s.inLambda t = some (block, e, p) → awaits (s.lambdas t) = true →
    ∃ before, s.bus.startedOf block = before ++ [p] ∧
      ∀ i, (messagesOf (log i) block).Sublist before

namespace Tracked
variable {log log' : ℕ → List (ExportedFrame Tid Val)} {awaits : LambdaState → Bool}

omit [DecidableEq Ty] [DecidableEq Tid] in
/-- No callback begins and no frame comes into the log. -/
theorem quiet (h : s.Tracked log awaits)
    (hexports : ∀ block e, s.exports block = some e → s'.exports block = some e)
    (hstarted : ∀ block e, s'.exports block = some e →
      s'.bus.startedOf block = s.bus.startedOf block ∧
        (s.exports block = some e ∨ s.exports block = none))
    (hcurrent : ∀ t y, s'.inLambda t = some y → awaits (s'.lambdas t) = true →
      s.inLambda t = some y ∧ awaits (s.lambdas t) = true) : s'.Tracked log awaits := by
  refine ⟨?_, ?_, ?_⟩
  · intro i x hx hnone
    cases he : s.exports x.block with
    | none => exact h.exported i x hx he
    | some e =>
      rw [hexports _ e he] at hnone
      cases hnone
  · intro i block e he
    obtain ⟨hsame, hold | hnew⟩ := hstarted block e he
    · rw [hsame]
      exact h.begun i block e hold
    · -- there are no frames of a new block
      rw [messagesOf_eq_nil]
      · exact List.nil_sublist _
      · rintro x hx rfl
        exact h.exported i x hx hnew
  · intro t block e p hlambda hawaits
    obtain ⟨hold, hold'⟩ := hcurrent t _ hlambda hawaits
    obtain ⟨before, hbefore, hlog⟩ := h.current t block e p hold hold'
    have he := hexports block e (inLambda_eq_some.mp hold).2
    exact ⟨before, (hstarted block e he).1.trans hbefore, hlog⟩

omit [DecidableEq Ty] in
/-- The next message of a block goes to its callback. -/
theorem began (h : s.Tracked log awaits) (hregistry : s'.bus.RegistryInvariant)
    (he : s.exports block = some e) (hexports : s'.exports = s.exports)
    (hlambda : ∀ u, s'.inLambda u = if u = t then some (block, e, p) else s.inLambda u)
    (hlambdas : s'.lambdas = s.lambdas)
    (hstarted : ∀ other, s'.bus.startedOf other =
      if other = block then s.bus.startedOf block ++ [p] else s.bus.startedOf other) :
    s'.Tracked log awaits := by
  refine ⟨?_, ?_, ?_⟩
  · rw [hexports]
    exact h.exported
  · intro i other e' he'
    have hold := h.begun i other e' (hexports ▸ he')
    rw [hstarted]
    split
    case isTrue hother =>
      rw [← hother]
      exact hold.trans (List.sublist_append_left _ _)
    case isFalse => exact hold
  · intro u other e' q hu hawaits
    by_cases hut : u = t
    · have heq := hu.symm.trans ((hlambda u).trans (if_pos hut))
      cases heq
      exact ⟨s.bus.startedOf block, (hstarted block).trans (if_pos rfl),
        fun i => h.begun i block e he⟩
    · have hold := (hlambda u).symm.trans hu
      rw [if_neg hut] at hold
      have hne : other ≠ block := by
        rintro rfl
        exact hut (inLambda_unique hregistry hu ((hlambda t).trans (if_pos rfl)))
      obtain ⟨before, hbefore, hlog⟩ := h.current u other e' q hold (hlambdas ▸ hawaits)
      exact ⟨before, ((hstarted other).trans (if_neg hne)).trans hbefore, hlog⟩

omit [DecidableEq Ty] in
/-- The frame of a running callback goes into the log, or is dropped on the way. -/
theorem logged (h : s.Tracked log awaits) (hregistry : s.bus.RegistryInvariant)
    (hlambda : s.inLambda t = some (block, e, p)) (hawaits : awaits (s.lambdas t) = true)
    (hbus : s'.bus = s.bus) (hexports : s'.exports = s.exports) {state : LambdaState}
    (hlambdas : s'.lambdas = Function.update s.lambdas t state) (hstate : awaits state = false)
    {frames : List (ExportedFrame Tid Val)}
    (hframes : (∃ frame, frames = [⟨block, p, frame⟩]) ∨ frames = [])
    (hlog : ∀ i, log' i = if i = e.bridge then log i ++ frames else log i) :
    s'.Tracked log' awaits := by
  have hblock {x : ExportedFrame Tid Val} (hx : x ∈ frames) : x.block = block := by
    rcases hframes with ⟨frame, rfl⟩ | rfl
    · rw [List.mem_singleton.mp hx]
    · cases hx
  have hmessages (i other : ℕ) :
      messagesOf (log' i) other = messagesOf (log i) other ∨
        other = block ∧ messagesOf (log' i) other = messagesOf (log i) other ++ [p] := by
    rw [hlog]
    split
    case isTrue hi =>
      rcases hframes with ⟨frame, rfl⟩ | rfl
      · rw [messagesOf_append, messagesOf_singleton]
        by_cases hother : block = other
        · exact .inr ⟨hother.symm, by rw [if_pos hother]⟩
        · left
          rw [if_neg hother, List.append_nil]
      · rw [List.append_nil]
        exact .inl rfl
    case isFalse => exact .inl rfl
  obtain ⟨before, hbefore, hbegun⟩ := h.current t block e p hlambda hawaits
  refine ⟨?_, ?_, ?_⟩
  · intro i x hx
    rw [hexports]
    rw [hlog] at hx
    split at hx
    case isTrue hi =>
      rcases List.mem_append.mp hx with hx | hx
      · exact h.exported i x hx
      · rw [hblock hx, (inLambda_eq_some.mp hlambda).2]
        simp
    case isFalse => exact h.exported i x hx
  · intro i other e' he'
    rw [hbus]
    rcases hmessages i other with hsame | ⟨rfl, hgrown⟩
    · rw [hsame]
      exact h.begun i other e' (hexports ▸ he')
    · -- the message is the last one that began
      rw [hgrown, hbefore]
      exact (hbegun i).append (List.Sublist.refl _)
  · intro u other e' q hu hawaits'
    have hut : u ≠ t := by
      rintro rfl
      rw [hlambdas, Function.update_self, hstate] at hawaits'
      cases hawaits'
    rw [inLambda_congr hbus hexports] at hu
    rw [hlambdas, Function.update_of_ne hut] at hawaits'
    obtain ⟨before', hbefore', hbegun'⟩ := h.current u other e' q hu hawaits'
    refine ⟨before', by rw [hbus]; exact hbefore', fun i => ?_⟩
    rcases hmessages i other with hsame | ⟨rfl, -⟩
    · rw [hsame]
      exact hbegun' i
    · exact absurd (inLambda_unique hregistry hu hlambda) hut

omit [DecidableEq Ty] in
/-- A callback goes on, and no frame comes into the log. -/
theorem advanced (h : s.Tracked log awaits) (hbus : s'.bus = s.bus)
    (hexports : s'.exports = s.exports) {state : LambdaState}
    (hlambdas : s'.lambdas = Function.update s.lambdas t state)
    (hawaits : awaits state = true → awaits (s.lambdas t) = true) : s'.Tracked log awaits := by
  refine h.quiet (fun block e he => hexports ▸ he) (fun block e he => ?_) fun u y hu hstate => ?_
  · exact ⟨by rw [hbus], .inl (hexports ▸ he)⟩
  · refine ⟨inLambda_congr hbus hexports u ▸ hu, ?_⟩
    by_cases hut : u = t
    · rw [hlambdas, hut, Function.update_self] at hstate
      exact hut ▸ hawaits hstate
    · rw [hlambdas, Function.update_of_ne hut] at hstate
      exact hstate

omit [DecidableEq Ty] in
/-- A callback returns. -/
theorem ended (h : s.Tracked log awaits)
    (hlambda : ∀ u, s'.inLambda u = if u = t then none else s.inLambda u) {state : LambdaState}
    (hlambdas : s'.lambdas = Function.update s.lambdas t state) (hexports : s'.exports = s.exports)
    (hstarted : ∀ block, s'.bus.startedOf block = s.bus.startedOf block) :
    s'.Tracked log awaits := by
  refine h.quiet (fun block e he => hexports ▸ he)
    (fun block e he => ⟨hstarted block, .inl (hexports ▸ he)⟩) fun u y hu hstate => ?_
  rw [hlambda] at hu
  obtain ⟨hut, hu⟩ := Option.ite_none_left_eq_some.mp hu
  rw [hlambdas, Function.update_of_ne hut] at hstate
  exact ⟨hu, hstate⟩

end Tracked

structure LogsTracked (s : BridgeNodeState Tid Val) : Prop where
  emitted : s.Tracked (fun i => (s.bridges i).emitted) LambdaState.emits
  queued : s.Tracked (fun i => (s.bridges i).queued) LambdaState.pushes

theorem LogsTracked.step (h : s.LogsTracked) (hregistry : s.bus.RegistryInvariant)
    (hregistry' : s'.bus.RegistryInvariant) (hs : ExportView traits s s') : s'.LogsTracked := by
  have hsame (hflow : ∀ j, (s'.bridges j).flow = (s.bridges j).flow) :
      (fun i => (s'.bridges i).emitted) = (fun i => (s.bridges i).emitted) ∧
        (fun i => (s'.bridges i).queued) = (fun i => (s.bridges i).queued) :=
    ⟨funext fun j => (congrArg ExportFlow.emitted (hflow j) :),
      funext fun j => (congrArg ExportFlow.queued (hflow j) :)⟩
  cases hs with
  | quiet hlambda hlambdas hflow hexports hstarted =>
    obtain ⟨hemitted, hqueued⟩ := hsame hflow
    have hcurrent (awaits : LambdaState → Bool) (u : Tid)
        (y : ℕ × ExportLambda Ty × Publication Tid Val) (hu : s'.inLambda u = some y)
        (hstate : awaits (s'.lambdas u) = true) :
        s.inLambda u = some y ∧ awaits (s.lambdas u) = true :=
      ⟨hlambda u ▸ hu, hlambdas ▸ hstate⟩
    refine ⟨?_, ?_⟩
    · rw [hemitted]
      exact h.emitted.quiet hexports hstarted (hcurrent _)
    · rw [hqueued]
      exact h.queued.quiet hexports hstarted (hcurrent _)
  | began t block e p hnone hlambda hlambdas hflow hexports he hstarted =>
    obtain ⟨hemitted, hqueued⟩ := hsame hflow
    refine ⟨?_, ?_⟩
    · rw [hemitted]
      exact h.emitted.began hregistry' he hexports hlambda hlambdas hstarted
    · rw [hqueued]
      exact h.queued.began hregistry' he hexports hlambda hlambdas hstarted
  | ended t threw hended hlambda hlambdas hflow hexports hstarted =>
    obtain ⟨hemitted, hqueued⟩ := hsame hflow
    refine ⟨?_, ?_⟩
    · rw [hemitted]
      exact h.emitted.ended hlambda hlambdas hexports hstarted
    · rw [hqueued]
      exact h.queued.ended hlambda hlambdas hexports hstarted
  | made t now block e p message state hlambda hentered hmessage hstate hbus hexports hlambdas
      hflow =>
    have hkept (j : ℕ) : (s'.bridges j).emitted = (s.bridges j).emitted ∧
        (s'.bridges j).queued = (s.bridges j).queued := by
      by_cases hj : j = e.bridge
      · have hdraw := (hflow j).trans (if_pos hj)
        rw [hj] at hdraw ⊢
        exact ⟨(congrArg ExportFlow.emitted hdraw :), (congrArg ExportFlow.queued hdraw :)⟩
      · have hother := (hflow j).trans (if_neg hj)
        exact ⟨(congrArg ExportFlow.emitted hother :), (congrArg ExportFlow.queued hother :)⟩
    refine ⟨?_, ?_⟩
    · rw [funext fun j => (hkept j).1]
      exact h.emitted.advanced hbus hexports hlambdas fun _ => by rw [hentered]; rfl
    · rw [funext fun j => (hkept j).2]
      exact h.queued.advanced hbus hexports hlambdas fun _ => by rw [hentered]; rfl
  | emitted t block e p frame state hlambda hbuilt hstate hbus hexports hlambdas hflow =>
    have hlogs (j : ℕ) : (s'.bridges j).emitted = (if j = e.bridge then
        (s.bridges j).emitted ++ [⟨block, p, frame⟩] else (s.bridges j).emitted) ∧
        (s'.bridges j).queued = (s.bridges j).queued := by
      by_cases hj : j = e.bridge
      · have hgrown := (hflow j).trans (if_pos hj)
        rw [if_pos hj]
        rw [hj] at hgrown ⊢
        exact ⟨(congrArg ExportFlow.emitted hgrown :), (congrArg ExportFlow.queued hgrown :)⟩
      · have hother := (hflow j).trans (if_neg hj)
        rw [if_neg hj]
        exact ⟨(congrArg ExportFlow.emitted hother :), (congrArg ExportFlow.queued hother :)⟩
    refine ⟨?_, ?_⟩
    · apply h.emitted.logged hregistry hlambda (by rw [hbuilt]; rfl) hbus hexports hlambdas ?_
        (.inl ⟨frame, rfl⟩) fun j => (hlogs j).1
      rcases hstate with rfl | rfl <;> rfl
    · rw [funext fun j => (hlogs j).2]
      exact h.queued.advanced hbus hexports hlambdas fun _ => by rw [hbuilt]; rfl
  | pushed t block e p frame frames hlambda hpushing hframes hbus hexports hlambdas hflow =>
    have hlogs (j : ℕ) : (s'.bridges j).emitted = (s.bridges j).emitted ∧
        (s'.bridges j).queued =
          if j = e.bridge then (s.bridges j).queued ++ frames else (s.bridges j).queued := by
      by_cases hj : j = e.bridge
      · have hgrown := (hflow j).trans (if_pos hj)
        rw [if_pos hj]
        rw [hj] at hgrown ⊢
        exact ⟨(congrArg ExportFlow.emitted hgrown :), (congrArg ExportFlow.queued hgrown :)⟩
      · have hother := (hflow j).trans (if_neg hj)
        rw [if_neg hj]
        exact ⟨(congrArg ExportFlow.emitted hother :), (congrArg ExportFlow.queued hother :)⟩
    refine ⟨?_, ?_⟩
    · rw [funext fun j => (hlogs j).1]
      exact h.emitted.advanced hbus hexports hlambdas nofun
    · exact h.queued.logged hregistry hlambda (by rw [hpushing]; rfl) hbus hexports hlambdas rfl
        (hframes.imp_left fun hframe => ⟨frame, hframe⟩) fun j => (hlogs j).2

structure ExportInvariant (traits : MessageTraits Val) (s : BridgeNodeState Tid Val) : Prop where
  registry : s.bus.RegistryInvariant
  registered : s.ExportsRegistered traits
  idle : s.LambdasIdle
  flow : ∀ i, s.FlowInvariant traits i
  logs : s.LogsTracked

theorem ExportInvariant.initial (bridges : ℕ → NetworkBridge)
    (h : ∀ i, (bridges i).nextSequence = 0) :
    ({ bridges := fun i => { bridge := bridges i } } : BridgeNodeState Tid Val).ExportInvariant
      traits where
  registry := .initial
  registered := nofun
  idle _ _ := rfl
  flow i := by
    refine ⟨h i, fun x hx => ?_, fun _ => .initial⟩
    rcases hx with ⟨t, ht⟩ | hx | hx
    · cases ht
    · cases hx
    · cases hx
  logs := ⟨⟨nofun, nofun, nofun⟩, ⟨nofun, nofun, nofun⟩⟩

theorem ExportInvariant.step (h : s.ExportInvariant traits) (hs : s.step traits a = some s') :
    s'.ExportInvariant traits ∧ ExportView traits s s' := by
  have hview := export_view h.registry (h.registered.created h.registry) hs
  have hregistry : s'.bus.RegistryInvariant := by
    rcases bus_of_step hs with hsame | ⟨act, hact⟩
    · exact hsame ▸ h.registry
    · exact h.registry.step (BusState.step_flow hact)
  exact ⟨⟨hregistry, h.registered.step h.registry hs, h.idle.step hview,
    fun i => (h.flow i).step h.registry h.idle hview, h.logs.step h.registry hregistry hview⟩, hview⟩

theorem exportInvariant_of_reachable
    (h : (bridgeNodeSystem traits options defaultPublisherId).Reachable s) :
    s.ExportInvariant traits := by
  refine h.invariant ?_ fun s a s' _ ih hs => (ih.step hs).1
  rintro s ⟨bridges, hcreate, rfl⟩
  apply ExportInvariant.initial
  intro i
  have hbridge := hcreate i
  unfold NetworkBridge.create at hbridge
  split at hbridge
  · cases hbridge
  · rw [← Except.ok.inj hbridge]

/-- The cast in a running export callback succeeds, so the step of `make_frame` is there. -/
theorem exists_makeFrame (h : (bridgeNodeSystem traits options defaultPublisherId).Reachable s)
    (hlambda : s.inLambda t = some (block, e, p)) (hentered : s.lambdas t = .entered)
    (now : BitVec 64) : ∃ s', s.step traits (.makeFrame t now) = some s' := by
  have hinv := exportInvariant_of_reachable h
  obtain ⟨sub, hsub, hcontract, -⟩ := hinv.registered block e (inLambda_eq_some.mp hlambda).2
  have hstarted : p ∈ sub.state.history.started := by
    obtain ⟨before, hbefore, -⟩ := hinv.logs.emitted.current t block e p hlambda
      (by rw [hentered]; rfl)
    rw [← BusState.startedOf_eq hsub, hbefore]
    exact List.mem_append_right _ (List.mem_singleton.mpr rfl)
  have hcast : ∃ message, staticPointerCast sub.contract.localType p.message = some message := by
    obtain ⟨-, message, -, hmessage⟩ :=
      BusState.delivered_of_reachable (bus_reachable h) hsub hstarted
    exact ⟨message, hmessage⟩
  rw [hcontract] at hcast
  obtain ⟨message, hmessage⟩ := hcast
  have hmessage : staticPointerCast e.localType p.message = some message := hmessage
  simp only [step, hlambda, hentered, hmessage]
  split
  · exact ⟨_, rfl⟩
  · exact ⟨_, rfl⟩

/-- What went into the outbound queue was taken out of it or is still there, in that order. -/
def QueueInvariant (s : BridgeNodeState Tid Val) : Prop :=
  ∀ i, (s.bridges i).queued.map ExportedFrame.frame =
    (s.bridges i).sent ++ (s.bridges i).bridge.outbound.queue

omit [DecidableEq Tid] [DecidableEq Ty] in
theorem QueueInvariant.setBridge (h : s.QueueInvariant) {state : BridgeState Tid Val}
    (hstate : state.queued.map ExportedFrame.frame = state.sent ++ state.bridge.outbound.queue) :
    (s.setBridge i state).QueueInvariant := by
  intro j
  by_cases hj : j = i
  · simpa only [BridgeNodeState.setBridge, hj, Function.update_self] using hstate
  · simpa only [BridgeNodeState.setBridge, ne_eq, hj, not_false_eq_true, Function.update_of_ne]
      using h j

theorem QueueInvariant.step (h : s.QueueInvariant) (hs : s.step traits a = some s') :
    s'.QueueInvariant := by
  cases step_view hs with
  | registered t i localTopic networkTopic block id bridge hcall hbridge =>
    obtain ⟨-, rfl⟩ := addExport_eq_ok hbridge
    exact h.setBridge (h i)
  | routed t i remoteTopic τ bridge hcall hbridge =>
    obtain rfl := addImport_eq_ok hbridge
    exact h.setBridge (h i)
  | made t now block e p message state => exact h.setBridge (h e.bridge)
  | emitted t block e p frame dropped state => exact h.setBridge (h e.bridge)
  | overflowed t block e p frame => exact h.setBridge (h e.bridge)
  | pushed t block e p frame outbound hlambda hpushing hpush =>
    obtain ⟨-, hpush⟩ := Option.ite_none_left_eq_some.mp hpush
    cases hpush
    apply h.setBridge
    rw [List.map_append, h e.bridge, List.append_assoc]
    rfl
  | taken i frame rest hqueue =>
    apply h.setBridge
    rw [h i, hqueue, List.append_assoc]
    rfl
  | stopped i => exact h.setBridge (h i)
  | cleared i => exact h.setBridge (h i)
  | closed i => exact h.setBridge (h i)
  | _ => exact h

theorem queueInvariant_of_reachable
    (h : (bridgeNodeSystem traits options defaultPublisherId).Reachable s) :
    s.QueueInvariant := by
  refine h.invariant (P := QueueInvariant) ?_ fun s a s' _ ih hs => ih.step hs
  rintro s ⟨bridges, hcreate, rfl⟩ i
  have hempty : (bridges i).outbound.queue = [] := by
    have hbridge := hcreate i
    unfold NetworkBridge.create at hbridge
    split at hbridge
    · cases hbridge
    · rw [← Except.ok.inj hbridge]
  exact hempty.symm

/-- Lists that correspond entry by entry, the left one without repetitions. -/
theorem forall₂_right_unique {α β : Type} {R : α → β → Prop} {as : List α} {bs : List β}
    (h : List.Forall₂ R as bs) (hnodup : as.Nodup)
    (hleft : ∀ {a a' : α} {b : β}, R a b → R a' b → a = a') {a : α} {b b' : β} (hb : b ∈ bs)
    (hb' : b' ∈ bs) (hab : R a b) (hab' : R a b') : b = b' := by
  -- the left of a later entry is there later too
  have hlater {as : List α} {bs : List β} (h : List.Forall₂ R as bs) {b : β} (hb : b ∈ bs) :
      ∃ a ∈ as, R a b := by
    induction h with
    | nil => cases hb
    | @cons a first as bs hfirst hrest ih =>
      rcases List.mem_cons.mp hb with rfl | hmem
      · exact ⟨a, List.mem_cons_self, hfirst⟩
      · obtain ⟨a', hmem', hab⟩ := ih hmem
        exact ⟨a', List.mem_cons_of_mem _ hmem', hab⟩
  induction h with
  | nil => cases hb
  | @cons first _ as bs hfirst hrest ih =>
    obtain ⟨hnew, hnodup⟩ := List.nodup_cons.mp hnodup
    rcases List.mem_cons.mp hb with rfl | hmem
    · obtain rfl := hleft hfirst hab
      rcases List.mem_cons.mp hb' with rfl | hmem'
      · rfl
      · obtain ⟨a', ha', hother⟩ := hlater hrest hmem'
        exact absurd (hleft hother hab' ▸ ha') hnew
    · rcases List.mem_cons.mp hb' with rfl | hmem'
      · obtain rfl := hleft hfirst hab'
        obtain ⟨a', ha', hother⟩ := hlater hrest hmem
        exact absurd (hleft hother hab ▸ ha') hnew
      · exact ih hnodup hmem hmem'

/-- Two export subscriptions of the bridge have different network topics. -/
def TopicsDistinct (s : BridgeNodeState Tid Val) (i : ℕ) : Prop :=
  ∀ block other e e', s.exports block = some e → s.exports other = some e' → e.bridge = i →
    e'.bridge = i → e.networkTopic = e'.networkTopic → block = other

def Exports (s : BridgeNodeState Tid Val) (i : ℕ) (topic : Bytes) (block : ℕ) : Prop :=
  ∃ e, s.exports block = some e ∧ e.bridge = i ∧ e.networkTopic = topic

/-- A call that registers an export got its subscription from the bus. -/
theorem registering_of_step (hs : s.step traits a = some s') {localTopic networkTopic : Bytes}
    {id : BitVec 64} (hcall : s'.calls t = .registering i localTopic networkTopic block id) :
    s.calls t = .registering i localTopic networkTopic block id ∨
      s'.Exports i networkTopic block := by
  have hother {call : ConfigureCall Ty} {u : Tid}
      (hcalls : s'.calls = Function.update s.calls u call)
      (hne : call ≠ .registering i localTopic networkTopic block id) :
      s.calls t = .registering i localTopic networkTopic block id ∨
        s'.Exports i networkTopic block := by
    rw [hcalls] at hcall
    by_cases htu : t = u
    · rw [htu, Function.update_self] at hcall
      exact absurd hcall hne
    · rw [Function.update_of_ne htu] at hcall
      exact .inl hcall
  cases step_view hs with
  | exporting | importing | refused | busRefused | rejected | cancelled | unsubscribed |
    advertised | registered | routed => exact hother rfl nofun
  | subscribed u j localTopic' networkTopic' τ options bus v id' =>
    have hcalls : Function.update s.calls u
        (.registering j localTopic' networkTopic' s.bus.history.created id') t = _ := hcall
    by_cases htu : t = u
    · rw [htu, Function.update_self] at hcalls
      cases hcalls
      exact .inr ⟨_, Function.update_self .., rfl, rfl⟩
    · rw [Function.update_of_ne htu] at hcalls
      exact .inl hcalls
  | _ => exact .inl hcall

structure ExportsListed (s : BridgeNodeState Tid Val) (i : ℕ) : Prop where
  topics : (s.bridges i).bridge.exportTopics.Nodup
  blocks : List.Forall₂ (s.Exports i) (s.bridges i).bridge.exportTopics
    (s.bridges i).bridge.exportCancellers
  registering : ∀ t localTopic networkTopic block id,
    s.calls t = .registering i localTopic networkTopic block id → s.Exports i networkTopic block

theorem ExportsListed.step (h : s.ExportsListed i) (hview : ExportView traits s s')
    (hs : s.step traits a = some s') : s'.ExportsListed i := by
  have hkept (topic : Bytes) (block : ℕ) (hexports : s.Exports i topic block) :
      s'.Exports i topic block := by
    obtain ⟨e, he, hbridge, htopic⟩ := hexports
    exact ⟨e, exports_of_view hview he, hbridge, htopic⟩
  have hcalls (t : Tid) (localTopic networkTopic : Bytes) (block : ℕ) (id : BitVec 64)
      (hcall : s'.calls t = .registering i localTopic networkTopic block id) :
      s'.Exports i networkTopic block := by
    rcases registering_of_step hs hcall with hold | hnew
    · exact hkept _ _ (h.registering t localTopic networkTopic block id hold)
    · exact hnew
  have hsame (htopics : (s'.bridges i).bridge.exportTopics = (s.bridges i).bridge.exportTopics)
      (hblocks : (s'.bridges i).bridge.exportCancellers =
        (s.bridges i).bridge.exportCancellers) : s'.ExportsListed i := by
    refine ⟨by rw [htopics]; exact h.topics, ?_, hcalls⟩
    rw [htopics, hblocks]
    exact h.blocks.imp hkept
  -- one bridge changes, and keeps its tables
  have hset {j : ℕ} {state : BridgeState Tid Val}
      (hbridges : s'.bridges = Function.update s.bridges j state)
      (htopics : state.bridge.exportTopics = (s.bridges j).bridge.exportTopics)
      (hblocks : state.bridge.exportCancellers = (s.bridges j).bridge.exportCancellers) :
      s'.ExportsListed i := by
    by_cases hij : i = j
    · apply hsame
      · rw [hbridges, hij, Function.update_self, htopics]
      · rw [hbridges, hij, Function.update_self, hblocks]
    · apply hsame
      · rw [hbridges, Function.update_of_ne hij]
      · rw [hbridges, Function.update_of_ne hij]
  cases step_view hs with
  | registered t j localTopic networkTopic block id bridge hcall hbridge =>
    obtain ⟨hnew, rfl⟩ := addExport_eq_ok hbridge
    by_cases hij : i = j
    · subst hij
      have hexports := hkept _ _ (h.registering t localTopic networkTopic block id hcall)
      have hself : (Function.update s.bridges i { s.bridges i with
          bridge := { (s.bridges i).bridge with
            exportTopics := (s.bridges i).bridge.exportTopics ++ [networkTopic]
            exportCancellers := (s.bridges i).bridge.exportCancellers ++ [block] } } i) = _ :=
        Function.update_self ..
      refine ⟨?_, ?_, hcalls⟩
      · simp only [return_, setCall, setBridge, hself]
        exact List.nodup_append.mpr ⟨h.topics, List.nodup_singleton _, by
          rintro topic htopic other hother rfl
          exact hnew (List.mem_singleton.mp hother ▸ htopic)⟩
      · simp only [return_, setCall, setBridge, hself]
        exact List.rel_append (h.blocks.imp hkept) (.cons hexports .nil)
    · apply hsame
      · simp only [return_, setCall, setBridge, Function.update_of_ne hij]
      · simp only [return_, setCall, setBridge, Function.update_of_ne hij]
  | routed t j remoteTopic τ bridge hcall hbridge =>
    obtain rfl := addImport_eq_ok hbridge
    exact hset rfl rfl rfl
  | cleared j hstopped =>
    by_cases hij : i = j
    · subst hij
      refine ⟨?_, ?_, hcalls⟩
      · simp only [setBridge, Function.update_self]
        exact .nil
      · simp only [setBridge, Function.update_self]
        exact .nil
    · apply hsame
      · simp only [setBridge, Function.update_of_ne hij]
      · simp only [setBridge, Function.update_of_ne hij]
  | made | emitted | pushed | overflowed | taken | stopped | closed => exact hset rfl rfl rfl
  | _ => exact hsame rfl rfl

theorem exportsListed_of_reachable
    (h : (bridgeNodeSystem traits options defaultPublisherId).Reachable s) (i : ℕ) :
    s.ExportsListed i := by
  refine h.invariant (P := fun s => s.ExportsListed i) ?_ fun s a s' hr ih hs =>
    ih.step ((exportInvariant_of_reachable hr).step hs).2 hs
  rintro s ⟨bridges, hcreate, rfl⟩
  have hbridge := hcreate i
  unfold NetworkBridge.create at hbridge
  split at hbridge
  · cases hbridge
  · have hbridge := Except.ok.inj hbridge
    refine ⟨?_, ?_, nofun⟩
    · simp only [← hbridge]
      exact .nil
    · simp only [← hbridge]
      exact .nil

/-- What `export_topics_` is for: as long as every export subscription of the bridge is a
registered one, no two of them have one network topic. -/
theorem topicsDistinct_of_registered
    (h : (bridgeNodeSystem traits options defaultPublisherId).Reachable s)
    (hregistered : ∀ block e, s.exports block = some e → e.bridge = i →
      block ∈ (s.bridges i).bridge.exportCancellers) : s.TopicsDistinct i := by
  have hlisted := exportsListed_of_reachable h i
  have htopic_unique {topic topic' : Bytes} {block : ℕ} (htopic : s.Exports i topic block)
      (htopic' : s.Exports i topic' block) : topic = topic' := by
    obtain ⟨e, he, -, rfl⟩ := htopic
    obtain ⟨e', he', -, rfl⟩ := htopic'
    cases he.symm.trans he'
    rfl
  intro block other e e' he he' hi hi' htopic
  exact forall₂_right_unique hlisted.blocks hlisted.topics htopic_unique
    (hregistered block e he hi) (hregistered other e' he' hi') ⟨e, he, hi, rfl⟩
    ⟨e', he', hi', htopic.symm⟩

end BridgeNodeState
end RobotMiddleware
