import RobotMiddleware.BridgeReceive

/-! A restarted exporter and the bridge that imports from it. -/
namespace RobotMiddleware

theorem makeFrame_eq_ok {topic payload : Bytes} {route : ExportRoute}
    {sequence publisherId now : BitVec 64} {frame : Frame}
    (h : makeFrame topic route payload sequence publisherId now = .ok frame) :
    frame.topic = topic ∧ frame.sequence = sequence ∧ frame.publisherId = publisherId := by
  unfold makeFrame at h
  split at h
  · cases h
  · split at h
    · cases h
    · cases h
      exact ⟨rfl, rfl, rfl⟩

namespace ExportState
variable {options : NetworkBridgeOptions} {defaultPublisherId publisherId : BitVec 64}
  {s s' : ExportState} {a : ExportAction}

def emitted (s : ExportState) : List Frame :=
  s.sent ++ s.bridge.outbound

def sentOn (s : ExportState) (topic : Bytes) : List Frame :=
  s.sent.filter fun frame => frame.topic = topic

inductive StepView (s : ExportState) : ExportState → Prop
  | quiet (s' : ExportState) :
      s'.bridge.nextSequence = s.bridge.nextSequence → s'.draws = s.draws →
      s'.building = s.building → s'.emitted = s.emitted → StepView s s'
  | built (s' : ExportState) (topic : Bytes) (frame : Frame) :
      s'.bridge.nextSequence = s.bridge.nextSequence + 1 → s'.draws = s.draws + 1 →
      frame.topic = topic → frame.sequence = s.bridge.nextSequence →
      frame.publisherId = s.bridge.publisherId →
      s'.building = Function.update s.building topic (some frame) →
      s'.emitted = s.emitted → StepView s s'
  | wasted (s' : ExportState) :
      s'.bridge.nextSequence = s.bridge.nextSequence + 1 → s'.draws = s.draws + 1 →
      s'.building = s.building → s'.emitted = s.emitted → StepView s s'
  | emitted (s' : ExportState) (topic : Bytes) (frame : Frame) :
      s'.bridge.nextSequence = s.bridge.nextSequence → s'.draws = s.draws →
      s.building topic = some frame →
      s'.building = Function.update s.building topic none →
      s'.emitted = s.emitted ++ [frame] ∨ s'.emitted = s.emitted → StepView s s'

theorem step_view (hs : s.step a = some s') :
    StepView s s' ∧ s'.bridge.publisherId = s.bridge.publisherId := by
  cases a with
  | addExport remoteTopic route =>
    simp only [step] at hs
    split at hs
    case h_1 bridge hadd =>
      cases hs
      obtain ⟨-, hbridge⟩ := Option.ite_none_left_eq_some.mp hadd
      cases hbridge
      exact ⟨.quiet _ rfl rfl rfl rfl, rfl⟩
    case h_2 =>
      cases hs
      exact ⟨.quiet _ rfl rfl rfl rfl, rfl⟩
  | callback topic payload now =>
    simp only [step] at hs
    split at hs
    case h_1 route hroute hidle =>
      split at hs
      case h_1 frame hframe =>
        cases hs
        obtain ⟨htopic, hsequence, hpublisher⟩ := makeFrame_eq_ok hframe
        exact ⟨.built _ topic frame rfl rfl htopic hsequence hpublisher rfl rfl, rfl⟩
      case h_2 =>
        cases hs
        exact ⟨.wasted _ rfl rfl rfl rfl, rfl⟩
    case h_2 => cases hs
  | emit topic =>
    simp only [step] at hs
    split at hs
    case h_1 frame hbuilding =>
      cases hs
      unfold BridgeExport.emitFrame
      split
      case isTrue =>
        have hpushed : s.sent ++ (s.bridge.outbound ++ [frame]) = s.emitted ++ [frame] :=
          (List.append_assoc _ _ _).symm
        exact ⟨.emitted _ topic frame rfl rfl hbuilding rfl (.inl hpushed), rfl⟩
      case isFalse => exact ⟨.emitted _ topic frame rfl rfl hbuilding rfl (.inr rfl), rfl⟩
    case h_2 => cases hs
  | take =>
    simp only [step] at hs
    split at hs
    case h_1 frame rest houtbound =>
      cases hs
      have htaken : s.sent ++ [frame] ++ rest = s.emitted := by
        rw [ExportState.emitted, houtbound, List.append_assoc]
        rfl
      exact ⟨.quiet _ rfl rfl rfl htaken, rfl⟩
    case h_2 => cases hs
  | stop =>
    cases hs
    exact ⟨.quiet _ rfl rfl rfl rfl, rfl⟩

theorem update_eq_some {building : Bytes → Option Frame} {topic t : Bytes} {frame : Option Frame}
    {f : Frame} (h : Function.update building topic frame t = some f) :
    t = topic ∧ frame = some f ∨ building t = some f := by
  by_cases ht : t = topic
  · subst ht
    rw [Function.update_self] at h
    exact .inl ⟨rfl, h⟩
  · rw [Function.update_of_ne ht] at h
    exact .inr h

/-- While the counter has not come round, the frames of a topic are emitted in the order of
their numbers, and the one being built has the greatest. -/
structure Ordered (s : ExportState) : Prop where
  drawn : ∀ f ∈ s.emitted, f.sequence.toNat < s.draws
  building_drawn : ∀ topic f, s.building topic = some f → f.sequence.toNat < s.draws
  building_last : ∀ topic f, s.building topic = some f →
    ∀ g ∈ s.emitted, g.topic = topic → g.sequence < f.sequence
  increasing : s.emitted.Pairwise fun f g => f.topic = g.topic → f.sequence < g.sequence

theorem Ordered.mono (h : Ordered s) (hdraws : s.draws ≤ s'.draws)
    (hbuilding : s'.building = s.building) (hemitted : s'.emitted = s.emitted) : Ordered s' := by
  refine ⟨?_, ?_, ?_, ?_⟩
  · intro f hf
    exact (h.drawn f (hemitted ▸ hf)).trans_le hdraws
  · intro topic f hf
    exact (h.building_drawn topic f (hbuilding ▸ hf)).trans_le hdraws
  · rw [hbuilding, hemitted]
    exact h.building_last
  · rw [hemitted]
    exact h.increasing

/-- The number just drawn is greater than all before it. -/
theorem Ordered.built (h : Ordered s) {topic : Bytes} {frame : Frame}
    (hsequence : frame.sequence.toNat = s.draws) (hdraws : s'.draws = s.draws + 1)
    (hbuilding : s'.building = Function.update s.building topic (some frame))
    (hemitted : s'.emitted = s.emitted) : Ordered s' := by
  refine ⟨?_, ?_, ?_, ?_⟩
  · intro f hf
    rw [hemitted] at hf
    exact (h.drawn f hf).trans (hdraws ▸ Nat.lt_succ_self _)
  · intro t f hf
    rw [hbuilding] at hf
    rcases update_eq_some hf with ⟨rfl, hframe⟩ | hold
    · cases hframe
      rw [hsequence, hdraws]
      exact Nat.lt_succ_self _
    · exact (h.building_drawn t f hold).trans (hdraws ▸ Nat.lt_succ_self _)
  · intro t f hf g hg ht
    rw [hbuilding] at hf
    rw [hemitted] at hg
    rcases update_eq_some hf with ⟨rfl, hframe⟩ | hold
    · cases hframe
      rw [BitVec.lt_def, hsequence]
      exact h.drawn g hg
    · exact h.building_last t f hold g hg ht
  · rw [hemitted]
    exact h.increasing

theorem Ordered.emit (h : Ordered s) {topic : Bytes} {frame : Frame}
    (hframe : s.building topic = some frame) (htopic : frame.topic = topic)
    (hdraws : s'.draws = s.draws)
    (hbuilding : s'.building = Function.update s.building topic none)
    (hemitted : s'.emitted = s.emitted ++ [frame] ∨ s'.emitted = s.emitted) : Ordered s' := by
  have hold {t : Bytes} {f : Frame} (hf : s'.building t = some f) :
      t ≠ topic ∧ s.building t = some f := by
    rw [hbuilding] at hf
    constructor
    · rintro rfl
      rw [Function.update_self] at hf
      cases hf
    · rcases update_eq_some hf with ⟨-, hnone⟩ | hsome
      · cases hnone
      · exact hsome
  have hmem {g : Frame} (hg : g ∈ s'.emitted) : g ∈ s.emitted ∨ g = frame := by
    rcases hemitted with hpushed | hdropped
    · rw [hpushed] at hg
      exact (List.mem_append.mp hg).imp_right List.mem_singleton.mp
    · exact .inl (hdropped ▸ hg)
  refine ⟨?_, ?_, ?_, ?_⟩
  · intro f hf
    rw [hdraws]
    rcases hmem hf with hf | rfl
    · exact h.drawn f hf
    · exact h.building_drawn topic f hframe
  · intro t f hf
    rw [hdraws]
    exact h.building_drawn t f (hold hf).2
  · intro t f hf g hg ht
    rcases hmem hg with hg | rfl
    · exact h.building_last t f (hold hf).2 g hg ht
    · exact absurd (ht.symm.trans htopic) (hold hf).1
  · rcases hemitted with hpushed | hdropped
    · -- the frame was drawn after all frames of its topic that are out
      rw [hpushed]
      refine List.pairwise_append.mpr ⟨h.increasing, List.pairwise_singleton _ _, ?_⟩
      intro g hg f hf hsame
      obtain rfl := List.mem_singleton.mp hf
      exact h.building_last topic f hframe g hg (hsame.trans htopic)
    · rw [hdropped]
      exact h.increasing

structure Numbered (publisherId : BitVec 64) (s : ExportState) : Prop where
  bridge_publisherId : s.bridge.publisherId = publisherId
  nextSequence : s.bridge.nextSequence = BitVec.ofNat 64 s.draws
  publisher : ∀ f ∈ s.emitted, f.publisherId = publisherId
  building : ∀ topic f, s.building topic = some f → f.topic = topic ∧ f.publisherId = publisherId
  ordered : s.draws ≤ 2 ^ 64 → Ordered s

theorem Numbered.step (h : Numbered publisherId s) (hs : s.step a = some s') :
    Numbered publisherId s' := by
  obtain ⟨hview, hpublisherId⟩ := step_view hs
  have hbridge := hpublisherId.trans h.bridge_publisherId
  have hcounted (hnext : s'.bridge.nextSequence = s.bridge.nextSequence + 1)
      (hdraws : s'.draws = s.draws + 1) :
      s'.bridge.nextSequence = BitVec.ofNat 64 s'.draws := by
    rw [hnext, hdraws, h.nextSequence, BitVec.ofNat_add]
    rfl
  cases hview with
  | quiet hnext hdraws hbuilding hemitted =>
    refine ⟨hbridge, ?_, hemitted ▸ h.publisher, hbuilding ▸ h.building, ?_⟩
    · rw [hnext, hdraws]
      exact h.nextSequence
    · intro hle
      exact (h.ordered (hdraws ▸ hle)).mono hdraws.ge hbuilding hemitted
  | built topic frame hnext hdraws htopic hsequence hpublisher hbuilding hemitted =>
    refine ⟨hbridge, hcounted hnext hdraws, hemitted ▸ h.publisher, ?_, ?_⟩
    · intro t f hf
      rw [hbuilding] at hf
      rcases update_eq_some hf with ⟨rfl, hframe⟩ | hold
      · cases hframe
        exact ⟨htopic, hpublisher.trans h.bridge_publisherId⟩
      · exact h.building t f hold
    · intro hle
      -- the counter has not come round before this draw, so the number is that of the draws
      have hlt : s.draws < 2 ^ 64 := by omega
      apply (h.ordered hlt.le).built _ hdraws hbuilding hemitted
      rw [hsequence, h.nextSequence, BitVec.toNat_ofNat, Nat.mod_eq_of_lt hlt]
  | wasted hnext hdraws hbuilding hemitted =>
    refine ⟨hbridge, hcounted hnext hdraws, hemitted ▸ h.publisher, hbuilding ▸ h.building, ?_⟩
    intro hle
    have hle' : s.draws ≤ s'.draws := by omega
    exact (h.ordered (hle'.trans hle)).mono hle' hbuilding hemitted
  | emitted topic frame hnext hdraws hframe hbuilding hemitted =>
    obtain ⟨htopic, hpublisher⟩ := h.building topic frame hframe
    refine ⟨hbridge, ?_, ?_, ?_, ?_⟩
    · rw [hnext, hdraws]
      exact h.nextSequence
    · intro f hf
      rcases hemitted with hpushed | hdropped
      · rw [hpushed] at hf
        rcases List.mem_append.mp hf with hf | hf
        · exact h.publisher f hf
        · exact List.mem_singleton.mp hf ▸ hpublisher
      · exact h.publisher f (hdropped ▸ hf)
    · intro t f hf
      rw [hbuilding] at hf
      rcases update_eq_some hf with ⟨-, hnone⟩ | hold
      · cases hnone
      · exact h.building t f hold
    · intro hle
      exact (h.ordered (hdraws ▸ hle)).emit hframe htopic hdraws hbuilding hemitted

theorem Numbered.of_reachable (hpublisher : options.publisherId ≠ 0)
    (h : (exportSystem options defaultPublisherId).Reachable s) :
    Numbered options.publisherId s := by
  refine TransitionSystem.Reachable.invariant ?_ (fun s a s' _ ih hs => ih.step hs) h
  rintro s ⟨bridge, hcreate, rfl⟩
  unfold BridgeExport.create at hcreate
  split at hcreate
  · cases hcreate
  · cases hcreate
    refine ⟨rfl, rfl, nofun, nofun, ?_⟩
    intro _
    exact ⟨nofun, nofun, nofun, .nil⟩

/-- Along a topic each number is greater than the one before, or the counter has come round to
0 and the clock has advanced. -/
def Follows (f g : Frame) : Prop :=
  f.sequence < g.sequence ∨ g.sequence = 0 ∧ f.sendTimeNs < g.sendTimeNs

theorem sentOn_follows (hpublisher : options.publisherId ≠ 0)
    (h : (exportSystem options defaultPublisherId).Reachable s) (hdraws : s.draws ≤ 2 ^ 64)
    (topic : Bytes) : (s.sentOn topic).IsChain Follows := by
  have hincreasing := ((Numbered.of_reachable hpublisher h).ordered hdraws).increasing
  have hsent : s.sent.Sublist s.emitted := List.sublist_append_left _ _
  have hpairwise := ((hincreasing.sublist hsent).filter fun f => f.topic = topic)
  apply List.Pairwise.isChain
  apply hpairwise.imp_of_mem
  intro f g hf hg hlt
  have htopic {x : Frame} (hx : x ∈ s.sentOn topic) : x.topic = topic := by
    simpa using (List.mem_filter.mp hx).2
  exact .inl (hlt ((htopic hf).trans (htopic hg).symm))

end ExportState

/-- An importer is in state `before` when the first bridge of a process has run and in state
`after` when it has received all frames of the second, among those of other publishers. The
verdicts on what came in between are `later`. -/
structure Restart (options importOptions : NetworkBridgeOptions) (first second : ExportState)
    (before after : ImportState) (later : List (Frame × Bool)) : Prop where
  publisherId_ne : options.publisherId ≠ 0
  first_reachable : ∃ id, (exportSystem options id).Reachable first
  second_reachable : ∃ id, (exportSystem options id).Reachable second
  clock : ∀ f ∈ first.sent, ∀ g ∈ second.sent, f.sendTimeNs < g.sendTimeNs
  before_reachable : (importSystem importOptions).Reachable before
  before_received : ∀ f ∈ before.checked, f.publisherId = options.publisherId → f ∈ first.sent
  running : ∃ actions, (importSystem importOptions).run before actions = some after
  verdicts : after.history.verdicts = before.history.verdicts ++ later
  received : (later.map Prod.fst).filter (fun f => f.publisherId = options.publisherId) =
    second.sent
  pairs_le : after.pairs.card ≤ importOptions.maxDedupEntries

namespace Restart
variable {options importOptions : NetworkBridgeOptions} {first second : ExportState}
  {before after : ImportState} {later : List (Frame × Bool)}

/-- No frame of the second bridge is taken for a duplicate. -/
def Recovered (options : NetworkBridgeOptions) (later : List (Frame × Bool)) : Prop :=
  ∀ v ∈ later, v.1.publisherId = options.publisherId → v.2 = true

/-- The second bridge's first frame on a topic is numbered 0, or the importer has nothing of
the topic or only smaller numbers. -/
def FirstRecognised (options : NetworkBridgeOptions) (second : ExportState)
    (before : ImportState) (topic : Bytes) : Prop :=
  ∀ last ∈ before.bridge.highestSequences.lookup (duplicateKey topic options.publisherId),
    ∀ f ∈ (second.sentOn topic).head?, last.highest < f.sequence ∨ f.sequence = 0

section Run
variable (r : Restart options importOptions first second before after later)
include r

theorem checked_after : after.checked = before.checked ++ later.map Prod.fst := by
  rw [ImportState.checked, r.verdicts, List.map_append, ImportState.checked]

theorem before_pairs_le : before.pairs.card ≤ importOptions.maxDedupEntries := by
  have hsubset : before.pairs ⊆ after.pairs := by
    intro k hk
    rw [ImportState.mem_pairs] at hk ⊢
    rw [r.checked_after, List.map_append]
    exact List.mem_append_left _ hk
  exact (Finset.card_le_card hsubset).trans r.pairs_le

/-- The importer goes on as the reference filter would from where it was. -/
theorem later_eq_run : later = referenceFilter.run
    (referenceFilter.after KeyedFilter.empty before.checked) (later.map Prod.fst) := by
  obtain ⟨actions, hrun⟩ := r.running
  have hafter := (ImportState.Refines.of_reachable (r.before_reachable.run hrun)).verdicts
    r.pairs_le
  have hbefore := (ImportState.Refines.of_reachable r.before_reachable).verdicts
    r.before_pairs_le
  rw [r.checked_after, KeyedFilter.run_append, r.verdicts, hbefore] at hafter
  exact List.append_cancel_left hafter

theorem filter_received (topic : Bytes) :
    (later.map Prod.fst).filter (fun f => referenceFilter.key f = (topic, options.publisherId)) =
      second.sentOn topic := by
  rw [ExportState.sentOn, ← r.received, List.filter_filter]
  apply List.filter_congr
  intro f _
  simp [referenceFilter]

/-- What the importer remembers of the publisher is older than the second bridge. -/
theorem remembered_older {topic : Bytes} {last : SequenceState}
    (hlast : referenceFilter.after KeyedFilter.empty before.checked
      (topic, options.publisherId) = some last) {f : Frame} (hf : f ∈ second.sent) :
    last.latestSendTimeNs < f.sendTimeNs := by
  -- the entry is that of a frame of the first bridge
  rcases KeyedFilter.exists_of_after_eq_some hlast with hempty | ⟨g, hg, hkey, hvalue⟩
  · cases hempty
  · have hsent := r.before_received g hg (congrArg Prod.snd hkey)
    rw [← hvalue]
    exact r.clock g hsent f hf

theorem firstRecognised_iff (topic : Bytes) :
    FirstRecognised options second before topic ↔
      ∀ last ∈ referenceFilter.after KeyedFilter.empty before.checked
        (topic, options.publisherId), ∀ f ∈ (second.sentOn topic).head?,
          referenceFilter.admits last f = true := by
  have hcell := (ImportState.Refines.of_reachable r.before_reachable).represents
    r.before_pairs_le topic options.publisherId
  rw [FirstRecognised, hcell]
  apply forall₂_congr
  intro last hlast
  apply forall₂_congr
  intro f hf
  have hsent : f ∈ second.sent := List.mem_of_mem_filter (List.mem_of_mem_head? hf)
  have holder := r.remembered_older hlast hsent
  simp only [referenceFilter, decide_eq_true_eq, holder, and_true]

/-- One topic of the second bridge. -/
theorem forall_topic_iff (topic : Bytes) :
    (∀ v ∈ later, referenceFilter.key v.1 = (topic, options.publisherId) → v.2 = true) ↔
      FirstRecognised options second before topic ∧
        (second.sentOn topic).IsChain ExportState.Follows := by
  -- the topic's verdicts are what the filter says to the topic's frames alone
  have hrun : later.filter (fun v => referenceFilter.key v.1 = (topic, options.publisherId)) =
      referenceFilter.run (referenceFilter.after KeyedFilter.empty before.checked)
        (second.sentOn topic) := by
    rw [← r.filter_received topic]
    conv_lhs => rw [r.later_eq_run]
    exact KeyedFilter.run_filter rfl _
  have hkeys : ∀ f ∈ second.sentOn topic,
      referenceFilter.key f = (topic, options.publisherId) := by
    intro f hf
    rw [← r.filter_received] at hf
    simpa using (List.mem_filter.mp hf).2
  have hfilter : (∀ v ∈ later, referenceFilter.key v.1 = (topic, options.publisherId) →
      v.2 = true) ↔ ∀ v ∈ later.filter (fun v => referenceFilter.key v.1 =
        (topic, options.publisherId)), v.2 = true := by
    simp only [List.mem_filter, decide_eq_true_eq, and_imp]
  rw [hfilter, hrun, KeyedFilter.forall_run_iff hkeys, r.firstRecognised_iff]
  apply and_congr_right
  intro _
  apply List.IsChain.iff
  intro f g
  exact decide_eq_true_iff

end Run

/-- The importer takes every frame of the restarted process exactly when each topic begins with
a number it can recognise and goes on without a break; the second is so as long as the counter
has not come round. -/
theorem recovered_iff (r : Restart options importOptions first second before after later) :
    (Recovered options later ↔ ∀ topic, FirstRecognised options second before topic ∧
      (second.sentOn topic).IsChain ExportState.Follows) ∧
    (second.draws ≤ 2 ^ 64 → ∀ topic, (second.sentOn topic).IsChain ExportState.Follows) := by
  constructor
  · rw [← forall_congr' r.forall_topic_iff]
    constructor
    · intro hall topic v hv hkey
      exact hall v hv (congrArg Prod.snd hkey)
    · intro hall v hv hpublisher
      exact hall v.1.topic v hv (Prod.ext rfl hpublisher)
  · obtain ⟨id, hreachable⟩ := r.second_reachable
    exact ExportState.sentOn_follows r.publisherId_ne hreachable

/-- An importer that hears of this process only. -/
theorem of_only_publisher {id id' : BitVec 64} {actions : List ImportAction}
    (hne : options.publisherId ≠ 0) (hfirst : (exportSystem options id).Reachable first)
    (hsecond : (exportSystem options id').Reachable second)
    (hbefore : (importSystem importOptions).Reachable before)
    (hrun : (importSystem importOptions).run before actions = some after)
    (hverdicts : after.history.verdicts = before.history.verdicts ++ later)
    (hheard : before.checked = first.sent) (hheard' : later.map Prod.fst = second.sent)
    (hclock : ∀ f ∈ first.sent, ∀ g ∈ second.sent, f.sendTimeNs < g.sendTimeNs)
    (hpairs : after.pairs.card ≤ importOptions.maxDedupEntries) :
    Restart options importOptions first second before after later where
  publisherId_ne := hne
  first_reachable := ⟨id, hfirst⟩
  second_reachable := ⟨id', hsecond⟩
  clock := hclock
  before_reachable := hbefore
  before_received := fun f hf _ => hheard ▸ hf
  running := ⟨actions, hrun⟩
  verdicts := hverdicts
  received := by
    rw [hheard']
    apply List.filter_eq_self.mpr
    intro f hf
    have hemitted : f ∈ second.emitted := List.mem_append_left _ hf
    exact decide_eq_true ((ExportState.Numbered.of_reachable hne hsecond).publisher f hemitted)
  pairs_le := hpairs

/-- A process with one topic: the restart is recognised by number 0. -/
theorem recovered_one_topic :
    let sent (sequence sendTimeNs : BitVec 64) : Frame :=
      { topic := [97], publisherId := 7, sequence := sequence, sendTimeNs := sendTimeNs }
    ∃ first second before after later,
      Restart { publisherId := 7 } {} first second before after later ∧
        second.sent = [sent 0 10, sent 1 11] ∧ Recovered { publisherId := 7 } later := by
  intro sent
  let frames (now now' : BitVec 64) : List ExportAction :=
    [.addExport [97] {}, .callback [97] [] now, .emit [97], .take, .callback [97] [] now',
      .emit [97], .take]
  let imported (frame : Frame) : List ImportAction :=
    [.receive frame, .lookup frame, .reserve frame, .enter frame, .finish frame false]
  obtain ⟨first, hfirst, hsent⟩ :=
    (exportSystem { publisherId := 7 } 0).exists_reachable_of_run
      { bridge := { publisherId := 7, outboundQueueDepth := 1024 } } (frames 1 2)
      (fun s => s.sent == [sent 0 1, sent 1 2]) ⟨_, rfl, rfl⟩ (by decide +kernel)
  obtain ⟨second, hsecond, hsent'⟩ :=
    (exportSystem { publisherId := 7 } 0).exists_reachable_of_run
      { bridge := { publisherId := 7, outboundQueueDepth := 1024 } } (frames 10 11)
      (fun s => s.sent == [sent 0 10, sent 1 11] && s.draws == 2) ⟨_, rfl, rfl⟩
      (by decide +kernel)
  obtain ⟨before, after, hbefore, hrun, hverdicts⟩ := (importSystem {}).exists_run_of_run
    { bridge := { maxDedupEntries := 4096, maxDedupEntries_pos := by decide } }
    (.addImport [97] {} :: imported (sent 0 1) ++ imported (sent 1 2))
    (imported (sent 0 10) ++ imported (sent 1 11))
    (fun s s' => s.history.verdicts == [(sent 0 1, true), (sent 1 2, true)] &&
      s'.history.verdicts == s.history.verdicts ++ [(sent 0 10, true), (sent 1 11, true)])
    ⟨_, rfl, rfl⟩ (by decide +kernel)
  simp only [Bool.and_eq_true, beq_iff_eq] at hsent hsent' hverdicts
  obtain ⟨hsent', hdraws⟩ := hsent'
  obtain ⟨hbefores, hafters⟩ := hverdicts
  have r : Restart { publisherId := 7 } {} first second before after
      [(sent 0 10, true), (sent 1 11, true)] := by
    apply of_only_publisher (by decide) hfirst hsecond hbefore hrun hafters
    · rw [ImportState.checked, hbefores, hsent]
      rfl
    · rw [hsent']
      rfl
    · rw [hsent, hsent']
      decide
    · rw [ImportState.pairs, ImportState.checked, hafters, hbefores]
      decide
  refine ⟨first, second, before, after, _, r, hsent', r.recovered_iff.1.mpr ?_⟩
  intro topic
  have hle : second.draws ≤ 2 ^ 64 := hdraws.trans_le (by norm_num)
  refine ⟨?_, r.recovered_iff.2 hle topic⟩
  intro last _ f hf
  rw [ExportState.sentOn, hsent'] at hf
  by_cases htopic : topic = [97]
  · subst htopic
    cases hf
    exact .inr rfl
  · have hnone : [sent 0 10, sent 1 11].filter (fun frame => frame.topic = topic) = [] := by
      apply List.filter_eq_nil_iff.mpr
      intro g hg
      have hg97 : g.topic = [97] := by
        rcases List.mem_pair.mp hg with rfl | rfl
        · rfl
        · rfl
      rw [hg97]
      simpa using Ne.symm htopic
    rw [hnone] at hf
    cases hf

/-- A process with two topics: the second one's first number after the restart is not 0, and
the importer takes it for the duplicate of the frame that had it before. -/
theorem restart_taken_for_duplicate :
    let sent (topic : Byte) (sequence sendTimeNs : BitVec 64) : Frame :=
      { topic := [topic], publisherId := 7, sequence := sequence, sendTimeNs := sendTimeNs }
    ∃ first second before after later,
      Restart { publisherId := 7 } {} first second before after later ∧
        first.sent = [sent 97 0 1, sent 98 1 2] ∧ second.sent = [sent 97 0 10, sent 98 1 11] ∧
        later = [(sent 97 0 10, true), (sent 98 1 11, false)] ∧
        ¬ Recovered { publisherId := 7 } later := by
  intro sent
  let frames (now now' : BitVec 64) : List ExportAction :=
    [.addExport [97] {}, .addExport [98] {}, .callback [97] [] now, .emit [97], .take,
      .callback [98] [] now', .emit [98], .take]
  let imported (frame : Frame) : List ImportAction :=
    [.receive frame, .lookup frame, .reserve frame, .enter frame, .finish frame false]
  let refused (frame : Frame) : List ImportAction :=
    [.receive frame, .lookup frame, .reserve frame]
  obtain ⟨first, hfirst, hsent⟩ :=
    (exportSystem { publisherId := 7 } 0).exists_reachable_of_run
      { bridge := { publisherId := 7, outboundQueueDepth := 1024 } } (frames 1 2)
      (fun s => s.sent == [sent 97 0 1, sent 98 1 2]) ⟨_, rfl, rfl⟩ (by decide +kernel)
  obtain ⟨second, hsecond, hsent'⟩ :=
    (exportSystem { publisherId := 7 } 0).exists_reachable_of_run
      { bridge := { publisherId := 7, outboundQueueDepth := 1024 } } (frames 10 11)
      (fun s => s.sent == [sent 97 0 10, sent 98 1 11]) ⟨_, rfl, rfl⟩ (by decide +kernel)
  obtain ⟨before, after, hbefore, hrun, hverdicts⟩ := (importSystem {}).exists_run_of_run
    { bridge := { maxDedupEntries := 4096, maxDedupEntries_pos := by decide } }
    ([.addImport [97] {}, .addImport [98] {}] ++ imported (sent 97 0 1) ++
      imported (sent 98 1 2))
    (imported (sent 97 0 10) ++ refused (sent 98 1 11))
    (fun s s' => s.history.verdicts == [(sent 97 0 1, true), (sent 98 1 2, true)] &&
      s'.history.verdicts == s.history.verdicts ++
        [(sent 97 0 10, true), (sent 98 1 11, false)])
    ⟨_, rfl, rfl⟩ (by decide +kernel)
  simp only [Bool.and_eq_true, beq_iff_eq] at hsent hsent' hverdicts
  obtain ⟨hbefores, hafters⟩ := hverdicts
  refine ⟨first, second, before, after, _, ?_, hsent, hsent', rfl, ?_⟩
  · apply of_only_publisher (by decide) hfirst hsecond hbefore hrun hafters
    · rw [ImportState.checked, hbefores, hsent]
      rfl
    · rw [hsent']
      rfl
    · rw [hsent, hsent']
      decide
    · rw [ImportState.pairs, ImportState.checked, hafters, hbefores]
      decide
  · intro hrecovered
    exact absurd (hrecovered (sent 98 1 11, false) (by simp) rfl) (by decide)

end Restart
end RobotMiddleware
