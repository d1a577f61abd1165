import RobotMiddleware.BridgeReceive

/-! What the import filter promises over a whole run. A restarted publisher lowers the highest
sequence of its pair, and a full table is emptied: the two ways in which a frame that was
imported once can be imported again. -/
namespace RobotMiddleware

namespace ImportState
variable {options : NetworkBridgeOptions} {s s' : ImportState} {a : ImportAction}

theorem accepted_eq (h : (importSystem options).Reachable s)
    (hpairs : s.pairs.card ≤ options.maxDedupEntries) :
    s.accepted = KeyedFilter.passed (referenceFilter.run KeyedFilter.empty s.checked) := by
  rw [accepted, (Refines.of_reachable h).verdicts hpairs]

/-! Epochs. -/

/-- Once a frame of sequence 0 is accepted, no frame of its pair that was sent before it is. -/
def EpochIsolation (s : ImportState) : Prop :=
  ∀ before g rest, s.accepted = before ++ g :: rest → g.sequence = 0 →
    ∀ f ∈ rest, referenceFilter.key f = referenceFilter.key g → g.sendTimeNs ≤ f.sendTimeNs

def LatestKept (s s' : ImportState) : Prop :=
  ∀ key, ∀ old ∈ s.bridge.highestSequences.lookup key,
    ∃ new ∈ s'.bridge.highestSequences.lookup key, old.latestSendTimeNs ≤ new.latestSendTimeNs

/-- A frame that advances the sequence of its pair was not sent before the last accepted one. -/
def InTimeOrder (s : ImportState) : ImportAction → Prop
  | .reserve frame =>
    ∀ found ∈ s.bridge.highestSequences.lookup (duplicateKey frame.topic frame.publisherId),
      found.highest < frame.sequence → found.latestSendTimeNs ≤ frame.sendTimeNs
  | _ => True

instance (s : ImportState) : ∀ a, Decidable (s.InTimeOrder a)
  | .reserve frame => inferInstanceAs (Decidable (∀ found ∈ s.bridge.highestSequences.lookup
      (duplicateKey frame.topic frame.publisherId),
      found.highest < frame.sequence → found.latestSendTimeNs ≤ frame.sendTimeNs))
  | .addImport .. | .stop | .receive _ | .lookup _ | .enter _ | .finish .. => .isTrue trivial

theorem LatestKept.of_table (h : s'.bridge.highestSequences = s.bridge.highestSequences) :
    LatestKept s s' := by
  intro key old hold
  exact ⟨old, h ▸ hold, BitVec.le_refl _⟩

theorem LatestKept.of_insert {frame : Frame} {state : SequenceState}
    (h : s'.bridge.highestSequences =
      s.bridge.highestSequences.insert (BridgeImport.frameKey frame) state)
    (hle : ∀ found ∈ s.bridge.highestSequences.lookup (BridgeImport.frameKey frame),
      found.latestSendTimeNs ≤ state.latestSendTimeNs) : LatestKept s s' := by
  intro key old hold
  rw [h]
  by_cases hkey : key = BridgeImport.frameKey frame
  · subst hkey
    exact ⟨state, AList.lookup_insert _, hle old hold⟩
  · refine ⟨old, ?_, BitVec.le_refl _⟩
    rw [AList.lookup_insert_ne hkey]
    exact hold

/-- While the table has room, a step keeps the recorded send times exactly when it is in time
order. -/
theorem latestKept_iff (h : (importSystem options).Reachable s) (hs : s.step a = some s')
    (hpairs : s'.pairs.card ≤ options.maxDedupEntries) : LatestKept s s' ↔ s.InTimeOrder a := by
  have hrefines := Refines.of_reachable h
  cases step_view hs with
  | enter frame _ hbridge hverdicts hentered hawaiting =>
    exact iff_of_true (.of_table (by rw [hbridge])) trivial
  | other _ _ hne htable hmax hverdicts hentered hawaiting =>
    apply iff_of_true (.of_table htable)
    cases a with
    | reserve frame => exact absurd rfl (hne frame)
    | _ => trivial
  | reserve frame _ hbridge hverdicts hentered hawaiting =>
    have hview := s.bridge.reserve_view frame
    have htable := congrArg BridgeImport.highestSequences hbridge
    generalize s.bridge.reserve frame = r at hview htable
    cases hview with
    | duplicate found hfound hrefused =>
      -- a refused frame does not advance the sequence
      apply iff_of_true (.of_table htable)
      intro found' hfound' hadvances
      cases (Option.mem_unique hfound hfound' : found = found')
      have hadmits : referenceFilter.admits found frame = true := by
        simp only [referenceFilter, hadvances, true_or, decide_true]
      rw [hrefused] at hadmits
      cases hadmits
    | advanced found hfound hadmitted =>
      constructor
      · intro hkept found' hfound' _
        obtain ⟨new, hnew, hle⟩ := hkept _ found' hfound'
        rw [htable] at hnew
        cases Option.mem_unique hnew (AList.lookup_insert _)
        exact hle
      · intro horder
        apply LatestKept.of_insert htable
        intro found' hfound'
        cases (Option.mem_unique hfound hfound' : found = found')
        simp only [referenceFilter, decide_eq_true_eq] at hadmitted
        rcases hadmitted with hadvances | ⟨-, hlater⟩
        · exact horder found hfound' hadvances
        · exact BitVec.le_of_lt hlater
    | fresh hnone hroom =>
      refine iff_of_true (.of_insert htable ?_) ?_
      · intro found hfound
        rw [hnone] at hfound
        cases hfound
      · intro found hfound
        cases hnone.symm.trans hfound
    | cleared hnone hfull =>
      -- the pairs are within the bound, so the table is not emptied
      have hchecked := checked_concat hverdicts
      rw [pairs_concat hchecked] at hpairs
      have hcell := hrefines.represents
        ((Finset.card_le_card (Finset.subset_insert _ _)).trans hpairs) frame.topic
        frame.publisherId
      exact absurd (hrefines.room hpairs (hcell.symm.trans hnone)) (not_lt.mpr hfull)

/-- Every accepted frame replaced one that was not sent after it. -/
def TimesAdvance (options : NetworkBridgeOptions) (s : ImportState) : Prop :=
  s.pairs.card ≤ options.maxDedupEntries →
    referenceFilter.Advances (fun last state => last.latestSendTimeNs ≤ state.latestSendTimeNs)
      s.checked

theorem TimesAdvance.of_reachableVia (h : (importSystem options).ReachableVia InTimeOrder s) :
    TimesAdvance options s := by
  refine TransitionSystem.ReachableVia.invariant ?_ ?_ h
  · rintro s ⟨bridge, -, rfl⟩ _ before f rest hsplit
    simp [checked] at hsplit
  · intro s a s' hr ih horder hs hpairs
    have hsame (hverdicts : s'.history.verdicts = s.history.verdicts) :
        s'.checked = s.checked := by
      rw [checked, hverdicts, checked]
    cases step_view hs with
    | enter frame _ hbridge hverdicts hentered hawaiting =>
      rw [pairs, hsame hverdicts] at hpairs
      rw [hsame hverdicts]
      exact ih hpairs
    | other _ _ hne htable hmax hverdicts hentered hawaiting =>
      rw [pairs, hsame hverdicts] at hpairs
      rw [hsame hverdicts]
      exact ih hpairs
    | reserve frame _ hbridge hverdicts hentered hawaiting =>
      have hchecked := checked_concat hverdicts
      rw [pairs_concat hchecked] at hpairs
      have hold := (Finset.card_le_card (Finset.subset_insert _ _)).trans hpairs
      rw [hchecked]
      apply (ih hold).concat
      intro found hfound hadmitted
      simp only [referenceFilter, decide_eq_true_eq] at hadmitted
      rcases hadmitted with hadvances | ⟨-, hlater⟩
      · -- the table holds the reference filter's value, so the order of the step applies
        have hcell := (Refines.of_reachable hr.reachable).represents hold frame.topic
          frame.publisherId
        exact horder found (hcell.trans hfound) hadvances
      · exact BitVec.le_of_lt hlater

/-- Epoch isolation, in every run in which a frame that advances the sequence of its pair was
not sent before the last accepted one. A step that is not of this kind lowers a recorded send
time. -/
theorem epoch_isolation_of_inTimeOrder (h : (importSystem options).ReachableVia InTimeOrder s)
    (hpairs : s.pairs.card ≤ options.maxDedupEntries) :
    s.EpochIsolation ∧
      ∀ a s', s.step a = some s' → s'.pairs.card ≤ options.maxDedupEntries →
        (LatestKept s s' ↔ s.InTimeOrder a) := by
  constructor
  · intro before g rest hsplit _ f hf hkey
    -- the accepted frames of a pair are in the order of their send times
    have htrans (x y z : SequenceState) : x.latestSendTimeNs ≤ y.latestSendTimeNs →
        y.latestSendTimeNs ≤ z.latestSendTimeNs → x.latestSendTimeNs ≤ z.latestSendTimeNs :=
      BitVec.le_trans
    have hpairwise := (TimesAdvance.of_reachableVia h hpairs).pairwise htrans
    rw [← accepted_eq h.reachable hpairs, hsplit] at hpairwise
    have hrest := (List.pairwise_append.mp hpairwise).2.1
    exact (List.pairwise_cons.mp hrest).1 f hf hkey.symm
  · intro a s' hs hpairs'
    exact latestKept_iff h.reachable hs hpairs'

/-- A restart, seen by a bridge that has the pair's frame 5: the new epoch's frames come in. -/
theorem epoch_isolation_restart :
    let old : Frame := { topic := [97], publisherId := 1, sequence := 5, sendTimeNs := 10 }
    let restart : Frame := { topic := [97], publisherId := 1, sequence := 0, sendTimeNs := 20 }
    let next : Frame := { topic := [97], publisherId := 1, sequence := 1, sendTimeNs := 21 }
    ∃ s : ImportState, s.history.entered = [old, restart, next] ∧ s.EpochIsolation := by
  intro old restart next
  obtain ⟨s, hs, hp⟩ := (importSystem {}).exists_reachableVia_of_run InTimeOrder
    { bridge := { maxDedupEntries := 4096, maxDedupEntries_pos := by decide } }
    [.addImport [97] {}, .receive old, .lookup old, .reserve old, .enter old,
      .receive restart, .receive next, .lookup next, .lookup restart, .reserve restart,
      .reserve next, .enter restart, .enter next]
    (fun s => s.history.entered == [old, restart, next] && s.checked == [old, restart, next])
    ⟨_, rfl, rfl⟩ (by decide +kernel)
  simp only [Bool.and_eq_true, beq_iff_eq] at hp
  have hpairs : s.pairs.card ≤ 4096 := by
    rw [pairs, hp.2]
    decide
  exact ⟨s, hp.1, (epoch_isolation_of_inTimeOrder hs hpairs).1⟩

/-- After a restart a frame of the old epoch is imported a second time. -/
theorem replay_after_restart :
    let old : Frame := { topic := [97], publisherId := 1, sequence := 5, sendTimeNs := 10 }
    let restart : Frame := { topic := [97], publisherId := 1, sequence := 0, sendTimeNs := 20 }
    ∃ s : ImportState, (importSystem {}).Reachable s ∧ s.pairs.card ≤ 4096 ∧
      s.history.entered = [old, restart, old] ∧ ¬ s.EpochIsolation := by
  intro old restart
  obtain ⟨s, hs, hp⟩ := (importSystem {}).exists_reachable_of_run
    { bridge := { maxDedupEntries := 4096, maxDedupEntries_pos := by decide } }
    [.addImport [97] {}, .receive old, .lookup old, .reserve old, .enter old,
      .receive restart, .lookup restart, .reserve restart, .enter restart,
      .receive old, .lookup old, .reserve old, .enter old]
    (fun s => s.history.entered == [old, restart, old] &&
      s.history.verdicts == [(old, true), (restart, true), (old, true)])
    ⟨_, rfl, rfl⟩ (by decide +kernel)
  simp only [Bool.and_eq_true, beq_iff_eq] at hp
  have hpairs : s.pairs.card ≤ 4096 := by
    rw [pairs, checked, hp.2]
    decide
  refine ⟨s, hs, hpairs, hp.1, ?_⟩
  intro hisolated
  have haccepted : s.accepted = [old] ++ restart :: [old] := by
    rw [accepted, hp.2]
    rfl
  have hle := hisolated [old] restart [old] haccepted rfl old (List.mem_singleton_self _) rfl
  exact absurd hle (by decide)

/-! The table bound. -/

/-- No frame of sequence 0 comes after the first frame of its pair. -/
def NoRestart (s : ImportState) : Prop :=
  ∀ before f rest, s.checked = before ++ f :: rest →
    referenceFilter.key f ∈ before.map referenceFilter.key → f.sequence ≠ 0

/-- What a frame must not be imported twice under. -/
def importId (frame : Frame) : Bytes × BitVec 64 × BitVec 64 :=
  (frame.topic, frame.publisherId, frame.sequence)

theorem NoRestart.of_ne_zero (h : ∀ f ∈ s.checked, f.sequence ≠ 0) : s.NoRestart := by
  intro before f rest hsplit _
  apply h f
  rw [hsplit]
  exact List.mem_append_right _ List.mem_cons_self

theorem NoRestart.advances (h : s.NoRestart) :
    referenceFilter.Advances (fun last state => last.highest < state.highest) s.checked := by
  intro before f rest hsplit last hlast hadmitted
  have hoccurred : referenceFilter.key f ∈ before.map referenceFilter.key := by
    -- a value is remembered, so this is not the first frame of its pair
    have hsome : referenceFilter.after KeyedFilter.empty before (referenceFilter.key f) ≠ none := by
      rw [hlast]
      nofun
    exact (KeyedFilter.after_ne_none.mp hsome).resolve_left fun hempty => hempty rfl
  simp only [referenceFilter, decide_eq_true_eq] at hadmitted
  exact hadmitted.resolve_right fun hzero => h before f rest hsplit hoccurred hzero.1

theorem nodup_accepted (h : (importSystem options).Reachable s)
    (hpairs : s.pairs.card ≤ options.maxDedupEntries) (hrestart : s.NoRestart) :
    (s.accepted.map importId).Nodup := by
  have htrans (x y z : SequenceState) : x.highest < y.highest → y.highest < z.highest →
      x.highest < z.highest :=
    BitVec.lt_trans
  have hpairwise := hrestart.advances.pairwise htrans
  rw [← accepted_eq h hpairs] at hpairwise
  apply List.pairwise_map.mpr
  apply hpairwise.imp
  intro f g hlt hsame
  obtain ⟨htopic, hrest⟩ := Prod.mk.inj hsame
  obtain ⟨hpublisher, hsequence⟩ := Prod.mk.inj hrest
  have hadvanced : f.sequence < g.sequence := hlt (Prod.ext htopic hpublisher)
  rw [hsequence] at hadvanced
  exact BitVec.lt_irrefl _ hadvanced

/-- A frame of one pair too many empties the table: every pair seen before is let through again. -/
theorem forgets_of_overflow (h : (importSystem options).Reachable s) {frame : Frame}
    (hs : s.step (.reserve frame) = some s') (hpairs : s.pairs.card ≤ options.maxDedupEntries)
    (hmany : options.maxDedupEntries < s'.pairs.card) {f : Frame} (hf : f ∈ s.checked) :
    (s'.bridge.reserve f).2 = true := by
  have hrefines := Refines.of_reachable h
  cases step_view hs with
  | other _ _ hne => exact absurd rfl (hne frame)
  | reserve _ _ hbridge hverdicts hentered hawaiting =>
    rw [pairs_concat (checked_concat hverdicts)] at hmany
    have hnew : referenceFilter.key frame ∉ s.pairs := by
      intro hmem
      rw [Finset.insert_eq_self.mpr hmem] at hmany
      exact absurd hmany (not_lt.mpr hpairs)
    have hother : referenceFilter.key f ≠ referenceFilter.key frame := by
      intro hsame
      exact hnew (mem_pairs.mpr (hsame ▸ List.mem_map_of_mem hf))
    -- every pair has an entry, so the new pair finds no room
    have hfull : s.bridge.maxDedupEntries ≤ s.bridge.highestSequences.keys.length := by
      rw [Finset.card_insert_of_notMem hnew] at hmany
      rw [hrefines.max]
      exact (Nat.lt_succ_iff.mp hmany).trans (hrefines.card_le_length hpairs)
    have hcell := hrefines.represents hpairs frame.topic frame.publisherId
    have hview := s.bridge.reserve_view frame
    have htable := congrArg BridgeImport.highestSequences hbridge
    generalize s.bridge.reserve frame = r at hview htable
    have hfound {found : SequenceState} (hentry : s.bridge.highestSequences.lookup
        (BridgeImport.frameKey frame) = some found) : False := by
      have hoccurred : referenceFilter.after KeyedFilter.empty s.checked
          (referenceFilter.key frame) ≠ none := by
        intro hnone
        cases hentry.symm.trans (hcell.trans hnone)
      exact hnew (mem_pairs.mpr
        ((KeyedFilter.after_ne_none.mp hoccurred).resolve_left fun hempty => hempty rfl))
    cases hview with
    | duplicate found hentry => exact (hfound hentry).elim
    | advanced found hentry => exact (hfound hentry).elim
    | fresh hnone hroom => exact absurd hroom (not_lt.mpr hfull)
    | cleared hnone _ =>
      -- only the new pair is left in the table
      apply BridgeImport.reserve_of_lookup_eq_none
      rw [htable]
      apply AList.lookup_insert_ne
      intro hsame
      obtain ⟨htopic, hpublisher⟩ := duplicateKey_injective hsame
      exact hother (Prod.ext htopic hpublisher)

/-- At-most-once import, while the checked frames are of at most `maxDedupEntries` pairs. The
table is bounded in every run, and the first frame of one pair more makes it forget: each
frame imported before is then let through again. -/
theorem at_most_once_within_bound (h : (importSystem options).Reachable s) :
    s.bridge.highestSequences.keys.length ≤ options.maxDedupEntries ∧
    (s.pairs.card ≤ options.maxDedupEntries → s.NoRestart →
      (s.history.entered.map importId).Nodup) ∧
    ∀ frame s', s.pairs.card ≤ options.maxDedupEntries → s.step (.reserve frame) = some s' →
      options.maxDedupEntries < s'.pairs.card →
        ∀ f ∈ s.history.entered, (s'.bridge.reserve f).2 = true := by
  have hhandled : (s.history.entered : Multiset Frame) ≤ s.accepted := by
    rw [← entered_add_awaiting h]
    exact Multiset.le_add_right _ _
  refine ⟨(Refines.of_reachable h).size, ?_, ?_⟩
  · intro hpairs hrestart
    have haccepted : (Multiset.map importId s.accepted).Nodup := by
      rw [Multiset.map_coe, Multiset.coe_nodup]
      exact nodup_accepted h hpairs hrestart
    have hentered := Multiset.nodup_of_le (Multiset.map_le_map hhandled) haccepted
    rwa [Multiset.map_coe, Multiset.coe_nodup] at hentered
  · intro frame s' hpairs hs hmany f hf
    have haccepted : f ∈ s.accepted := Multiset.mem_coe.mp (Multiset.mem_of_le hhandled hf)
    have hchecked : f ∈ s.checked :=
      List.mem_map.mpr ⟨(f, true), KeyedFilter.mem_passed.mp haccepted, rfl⟩
    exact forgets_of_overflow h hs hpairs hmany hchecked

/-- One pair and a table of one entry: the duplicate stays out. -/
theorem at_most_once_one_pair :
    let first : Frame := { topic := [97], publisherId := 1, sequence := 5 }
    let second : Frame := { topic := [97], publisherId := 1, sequence := 6 }
    ∃ s : ImportState, s.checked = [first, second, first, second] ∧
      s.history.entered = [second, first] ∧ s.bridge.highestSequences.keys.length ≤ 1 ∧
      (s.history.entered.map importId).Nodup := by
  intro first second
  obtain ⟨s, hs, hp⟩ := (importSystem { maxDedupEntries := 1 }).exists_reachable_of_run
    { bridge := { maxDedupEntries := 1, maxDedupEntries_pos := by decide } }
    [.addImport [97] {}, .receive first, .lookup first, .reserve first, .receive second,
      .lookup second, .reserve second, .receive first, .lookup first, .reserve first,
      .receive second, .lookup second, .reserve second, .enter second, .enter first]
    (fun s => s.history.entered == [second, first] &&
      s.checked == [first, second, first, second])
    ⟨_, rfl, rfl⟩ (by decide +kernel)
  simp only [Bool.and_eq_true, beq_iff_eq] at hp
  have hpairs : s.pairs.card ≤ 1 := by
    rw [pairs, hp.2]
    decide
  have hrestart : s.NoRestart := by
    apply NoRestart.of_ne_zero
    rw [hp.2]
    decide
  obtain ⟨hsize, honce, -⟩ := at_most_once_within_bound hs
  exact ⟨s, hp.2, hp.1, hsize, honce hpairs hrestart⟩

/-- With a table of one entry, a frame of another publisher lets a frame in twice. -/
theorem duplicate_after_overflow :
    let first : Frame := { topic := [97], publisherId := 1, sequence := 5 }
    let other : Frame := { topic := [97], publisherId := 2, sequence := 5 }
    ∃ s : ImportState, (importSystem { maxDedupEntries := 1 }).Reachable s ∧ s.NoRestart ∧
      s.history.entered = [first, other, first] ∧ ¬ (s.history.entered.map importId).Nodup := by
  intro first other
  obtain ⟨s, hs, hp⟩ := (importSystem { maxDedupEntries := 1 }).exists_reachable_of_run
    { bridge := { maxDedupEntries := 1, maxDedupEntries_pos := by decide } }
    [.addImport [97] {}, .receive first, .lookup first, .reserve first, .enter first,
      .receive other, .lookup other, .reserve other, .enter other,
      .receive first, .lookup first, .reserve first, .enter first]
    (fun s => s.history.entered == [first, other, first] && s.checked == [first, other, first])
    ⟨_, rfl, rfl⟩ (by decide +kernel)
  simp only [Bool.and_eq_true, beq_iff_eq] at hp
  refine ⟨s, hs, ?_, hp.1, ?_⟩
  · apply NoRestart.of_ne_zero
    rw [hp.2]
    decide
  · rw [hp.1]
    decide

end ImportState
end RobotMiddleware
