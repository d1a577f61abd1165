import Mathlib.Data.Finset.Card
import RobotMiddleware.BridgeFilter

/-! `receive_frame` under any number of threads: what the import handlers see is what the
reference filter lets through, as long as the table has room for every pair. -/
namespace RobotMiddleware

namespace ImportState
variable {options : NetworkBridgeOptions} {s s' : ImportState} {a : ImportAction}

/-- The frames that passed the topic and type checks, in the order of their dedup sections. -/
def checked (s : ImportState) : List Frame :=
  s.history.verdicts.map Prod.fst

/-- The frames that the dedup section let through, in that order. -/
def accepted (s : ImportState) : List Frame :=
  KeyedFilter.passed s.history.verdicts

def pairs (s : ImportState) : Finset (Bytes × BitVec 64) :=
  (s.checked.map referenceFilter.key).toFinset

def held : ReceiveCall → Multiset Frame
  | .reserved frame => {frame}
  | _ => 0

def awaiting (s : ImportState) : Multiset Frame :=
  (s.calls.map held).sum

theorem mem_pairs {k : Bytes × BitVec 64} : k ∈ s.pairs ↔ k ∈ s.checked.map referenceFilter.key :=
  List.mem_toFinset

inductive StepView (s : ImportState) : ImportAction → ImportState → Prop
  | reserve (frame : Frame) (s' : ImportState) :
      s'.bridge = (s.bridge.reserve frame).1 →
      s'.history.verdicts = s.history.verdicts ++ [(frame, (s.bridge.reserve frame).2)] →
      s'.history.entered = s.history.entered →
      s'.awaiting = (if (s.bridge.reserve frame).2 then {frame} else 0) + s.awaiting →
      StepView s (.reserve frame) s'
  | enter (frame : Frame) (s' : ImportState) :
      s'.bridge = s.bridge →
      s'.history.verdicts = s.history.verdicts →
      s'.history.entered = s.history.entered ++ [frame] →
      s.awaiting = {frame} + s'.awaiting →
      StepView s (.enter frame) s'
  | other (a : ImportAction) (s' : ImportState) :
      (∀ frame, a ≠ .reserve frame) →
      s'.bridge.highestSequences = s.bridge.highestSequences →
      s'.bridge.maxDedupEntries = s.bridge.maxDedupEntries →
      s'.history.verdicts = s.history.verdicts →
      s'.history.entered = s.history.entered →
      s'.awaiting = s.awaiting →
      StepView s a s'

theorem lookupRoute_table (b : BridgeImport) (frame : Frame) :
    (b.lookupRoute frame).1.highestSequences = b.highestSequences ∧
      (b.lookupRoute frame).1.maxDedupEntries = b.maxDedupEntries := by
  unfold BridgeImport.lookupRoute
  split
  · exact ⟨rfl, rfl⟩
  · split
    · exact ⟨rfl, rfl⟩
    · exact ⟨rfl, rfl⟩

theorem finish_table (b : BridgeImport) (threw : Bool) :
    (b.finish threw).highestSequences = b.highestSequences ∧
      (b.finish threw).maxDedupEntries = b.maxDedupEntries := by
  cases threw with
  | false => exact ⟨rfl, rfl⟩
  | true => exact ⟨rfl, rfl⟩

theorem held_cons (c : ReceiveCall) (cs : Multiset ReceiveCall) :
    ((c ::ₘ cs).map held).sum = held c + (cs.map held).sum := by
  rw [Multiset.map_cons, Multiset.sum_cons]

theorem held_erase {c : ReceiveCall} {cs : Multiset ReceiveCall} (h : c ∈ cs) :
    (cs.map held).sum = held c + ((cs.erase c).map held).sum := by
  rw [← held_cons, Multiset.cons_erase h]

theorem step_view (hs : s.step a = some s') : StepView s a s' := by
  cases a with
  | addImport remoteTopic route =>
    simp only [step] at hs
    split at hs
    case h_1 bridge hadd =>
      cases hs
      obtain ⟨-, hbridge⟩ := Option.ite_none_left_eq_some.mp hadd
      cases hbridge
      exact .other _ _ (by simp) rfl rfl rfl rfl rfl
    case h_2 =>
      cases hs
      exact .other _ _ (by simp) rfl rfl rfl rfl rfl
  | stop =>
    cases hs
    exact .other _ _ (by simp) rfl rfl rfl rfl rfl
  | receive frame =>
    simp only [step] at hs
    split at hs
    · cases hs
      exact .other _ _ (by simp) rfl rfl rfl rfl rfl
    · split at hs
      · cases hs
        exact .other _ _ (by simp) rfl rfl rfl rfl rfl
      · cases hs
        exact .other _ _ (by simp) rfl rfl rfl rfl rfl
      · cases hs
        refine .other _ _ (by simp) rfl rfl rfl rfl ?_
        exact (held_cons _ _).trans (zero_add _)
  | lookup frame =>
    obtain ⟨hmem, hs⟩ := Option.ite_none_right_eq_some.mp hs
    have hheld := (held_erase hmem).trans (zero_add _)
    obtain ⟨htable, hmax⟩ := lookupRoute_table s.bridge frame
    split at hs
    case h_1 bridge hroute =>
      cases hs
      rw [hroute] at htable hmax
      refine .other _ _ (by simp) htable hmax rfl rfl ?_
      exact ((held_cons _ _).trans (zero_add _)).trans hheld.symm
    case h_2 bridge hroute =>
      cases hs
      rw [hroute] at htable hmax
      exact .other _ _ (by simp) htable hmax rfl rfl hheld.symm
  | reserve frame =>
    -- a call awaits its handler from here on, if its frame is let through
    obtain ⟨hmem, hs⟩ := Option.ite_none_right_eq_some.mp hs
    have hheld := (held_erase hmem).trans (zero_add _)
    split at hs
    case h_1 bridge hreserve =>
      cases hs
      refine .reserve frame _ (by rw [hreserve]) (by rw [hreserve]) rfl ?_
      rw [hreserve, awaiting, awaiting, hheld]
      exact held_cons _ _
    case h_2 bridge hreserve =>
      cases hs
      refine .reserve frame _ (by rw [hreserve]; rfl) (by rw [hreserve]; rfl) rfl ?_
      rw [hreserve]
      exact hheld.symm.trans (zero_add _).symm
  | enter frame =>
    obtain ⟨hmem, hs⟩ := Option.ite_none_right_eq_some.mp hs
    cases hs
    refine .enter frame _ rfl rfl rfl ?_
    have hcons := (held_cons (.handling frame) (s.calls.erase (.reserved frame))).trans (zero_add _)
    exact (held_erase hmem).trans (congrArg ({frame} + ·) hcons.symm)
  | finish frame threw =>
    obtain ⟨hmem, hs⟩ := Option.ite_none_right_eq_some.mp hs
    have hheld := (held_erase hmem).trans (zero_add _)
    obtain ⟨htable, hmax⟩ := finish_table s.bridge threw
    cases hs
    exact .other _ _ (by simp) htable hmax rfl rfl hheld.symm

/-- An accepted frame either awaits its handler or has entered it, as often as it was accepted. -/
theorem entered_add_awaiting (h : (importSystem options).Reachable s) :
    (s.history.entered : Multiset Frame) + s.awaiting = s.accepted := by
  refine TransitionSystem.Reachable.invariant
    (P := fun s => (s.history.entered : Multiset Frame) + s.awaiting = s.accepted) ?_ ?_ h
  · rintro s ⟨bridge, -, rfl⟩
    rfl
  · intro s a s' hr ih hs
    cases step_view hs with
    | reserve frame _ hbridge hverdicts hentered hawaiting =>
      -- both sides grow by the frame, or by nothing
      rw [hentered, hawaiting, accepted, hverdicts, KeyedFilter.passed_append]
      rw [← Multiset.coe_add, ← accepted, ← ih]
      cases (s.bridge.reserve frame).2 with
      | false => exact (congrArg _ (zero_add _)).trans (add_zero _).symm
      | true => rw [add_assoc, add_comm s.awaiting]; rfl
    | enter frame _ hbridge hverdicts hentered hawaiting =>
      -- the frame goes from the one summand to the other
      rw [hawaiting] at ih
      rw [hentered, accepted, hverdicts, ← accepted, ← ih, ← Multiset.coe_add, add_assoc]
      rfl
    | other _ _ hne htable hmax hverdicts hentered hawaiting =>
      rw [hentered, hawaiting, accepted, hverdicts]
      exact ih

theorem checked_concat {frame : Frame} {verdict : Bool}
    (h : s'.history.verdicts = s.history.verdicts ++ [(frame, verdict)]) :
    s'.checked = s.checked ++ [frame] := by
  rw [checked, h, List.map_append]
  rfl

theorem pairs_concat {frame : Frame} (h : s'.checked = s.checked ++ [frame]) :
    s'.pairs = insert (referenceFilter.key frame) s.pairs := by
  ext k
  rw [Finset.mem_insert, mem_pairs, mem_pairs, h, List.map_append, List.mem_append]
  exact or_comm.trans (or_congr List.mem_singleton Iff.rfl)

/-- The table remembers pairs that have occurred, and as long as their number is within the
bound it is the reference filter's memory. -/
structure Refines (options : NetworkBridgeOptions) (s : ImportState) : Prop where
  max : s.bridge.maxDedupEntries = options.maxDedupEntries
  size : s.bridge.highestSequences.keys.length ≤ options.maxDedupEntries
  keys : ∀ key ∈ s.bridge.highestSequences.keys,
    ∃ k ∈ s.pairs, key = duplicateKey k.1 k.2
  verdicts : s.pairs.card ≤ options.maxDedupEntries →
    s.history.verdicts = referenceFilter.run KeyedFilter.empty s.checked
  represents : s.pairs.card ≤ options.maxDedupEntries →
    s.bridge.Represents (referenceFilter.after KeyedFilter.empty s.checked)

theorem Refines.length_le_card (h : Refines options s) :
    s.bridge.highestSequences.keys.length ≤ s.pairs.card := by
  have hsubset : s.bridge.highestSequences.keys.toFinset ⊆
      s.pairs.image fun k => duplicateKey k.1 k.2 := by
    intro key hkey
    obtain ⟨k, hk, rfl⟩ := h.keys key (List.mem_toFinset.mp hkey)
    exact Finset.mem_image_of_mem _ hk
  calc s.bridge.highestSequences.keys.length
      = s.bridge.highestSequences.keys.toFinset.card :=
        (List.toFinset_card_of_nodup s.bridge.highestSequences.keys_nodup).symm
    _ ≤ (s.pairs.image fun k => duplicateKey k.1 k.2).card := Finset.card_le_card hsubset
    _ ≤ s.pairs.card := Finset.card_image_le

/-- While no table was emptied every pair has an entry. -/
theorem Refines.card_le_length (h : Refines options s)
    (hpairs : s.pairs.card ≤ options.maxDedupEntries) :
    s.pairs.card ≤ s.bridge.highestSequences.keys.length := by
  have hsubset : (s.pairs.image fun k => duplicateKey k.1 k.2) ⊆
      s.bridge.highestSequences.keys.toFinset := by
    intro key hkey
    obtain ⟨k, hk, rfl⟩ := Finset.mem_image.mp hkey
    have hcell : referenceFilter.after KeyedFilter.empty s.checked k ≠ none :=
      KeyedFilter.after_ne_none.mpr (.inr (mem_pairs.mp hk))
    have hlookup := h.represents hpairs k.1 k.2
    rw [List.mem_toFinset, ← AList.mem_keys]
    by_contra hforgotten
    rw [AList.lookup_eq_none.mpr hforgotten] at hlookup
    exact hcell hlookup.symm
  have hinjective : Function.Injective fun k : Bytes × BitVec 64 => duplicateKey k.1 k.2 := by
    intro k k' hsame
    obtain ⟨htopic, hpublisher⟩ := duplicateKey_injective hsame
    exact Prod.ext htopic hpublisher
  calc s.pairs.card
      = (s.pairs.image fun k => duplicateKey k.1 k.2).card :=
        (Finset.card_image_of_injective _ hinjective).symm
    _ ≤ s.bridge.highestSequences.keys.toFinset.card := Finset.card_le_card hsubset
    _ = s.bridge.highestSequences.keys.length :=
        List.toFinset_card_of_nodup s.bridge.highestSequences.keys_nodup

/-- A frame of a new pair finds room, if the pairs with it are within the bound. -/
theorem Refines.room (h : Refines options s) {frame : Frame}
    (hcard : (insert (referenceFilter.key frame) s.pairs).card ≤ options.maxDedupEntries)
    (hnew : referenceFilter.after KeyedFilter.empty s.checked (referenceFilter.key frame) =
      none) :
    s.bridge.highestSequences.keys.length < s.bridge.maxDedupEntries := by
  have hnot : referenceFilter.key frame ∉ s.pairs := by
    intro hmem
    exact KeyedFilter.after_ne_none.mpr (.inr (mem_pairs.mp hmem)) hnew
  rw [Finset.card_insert_of_notMem hnot] at hcard
  rw [h.max]
  exact lt_of_le_of_lt h.length_le_card hcard

theorem Refines.reserve (h : Refines options s) {frame : Frame}
    (hbridge : s'.bridge = (s.bridge.reserve frame).1)
    (hverdicts : s'.history.verdicts =
      s.history.verdicts ++ [(frame, (s.bridge.reserve frame).2)]) : Refines options s' := by
  have hchecked := checked_concat hverdicts
  have hpairs := pairs_concat hchecked
  have hmax : s'.bridge.maxDedupEntries = options.maxDedupEntries := by
    rw [hbridge, BridgeImport.maxDedupEntries_reserve, h.max]
  have hsubset : s.pairs ⊆ s'.pairs := by
    rw [hpairs]
    exact Finset.subset_insert _ _
  refine ⟨hmax, ?_, ?_, ?_, ?_⟩
  · rw [← hmax, hbridge]
    exact BridgeImport.length_keys_reserve (h.max ▸ h.size)
  · intro key hkey
    -- the only key that can be new is the frame's
    rw [hbridge] at hkey
    rcases BridgeImport.mem_keys_reserve hkey with rfl | hold
    · exact ⟨referenceFilter.key frame, hpairs ▸ Finset.mem_insert_self _ _, rfl⟩
    · obtain ⟨k, hk, rfl⟩ := h.keys key hold
      exact ⟨k, hsubset hk, rfl⟩
  · intro hcard
    -- the pairs were within the bound before, so the table was the reference's memory
    have hold := (Finset.card_le_card hsubset).trans hcard
    rw [hverdicts, hchecked, KeyedFilter.run_concat, ← h.verdicts hold,
      BridgeImport.reserve_verdict (h.represents hold)]
  · intro hcard
    have hold := (Finset.card_le_card hsubset).trans hcard
    rw [hbridge, hchecked, KeyedFilter.after_concat]
    exact BridgeImport.reserve_represents (h.represents hold) (h.room (hpairs ▸ hcard))

/-- A step that leaves the table and the checked frames alone. -/
theorem Refines.congr (h : Refines options s)
    (htable : s'.bridge.highestSequences = s.bridge.highestSequences)
    (hmax : s'.bridge.maxDedupEntries = s.bridge.maxDedupEntries)
    (hverdicts : s'.history.verdicts = s.history.verdicts) : Refines options s' := by
  have hchecked : s'.checked = s.checked := by rw [checked, hverdicts, checked]
  have hpairs : s'.pairs = s.pairs := by rw [pairs, hchecked, pairs]
  refine ⟨hmax.trans h.max, ?_, ?_, ?_, ?_⟩
  · rw [htable]
    exact h.size
  · rw [htable, hpairs]
    exact h.keys
  · rw [hpairs, hverdicts, hchecked]
    exact h.verdicts
  · intro hcard topic publisherId
    rw [hpairs] at hcard
    rw [htable, hchecked]
    exact h.represents hcard topic publisherId

theorem Refines.of_reachable (h : (importSystem options).Reachable s) : Refines options s := by
  refine TransitionSystem.Reachable.invariant ?_ ?_ h
  · rintro s ⟨bridge, hcreate, rfl⟩
    obtain ⟨hmax, htable⟩ := BridgeImport.create_eq_ok hcreate
    refine ⟨hmax, ?_, ?_, fun _ => rfl, ?_⟩
    · rw [htable]
      exact Nat.zero_le _
    · rw [htable]
      nofun
    · intro _ topic publisherId
      rw [htable]
      rfl
  · intro s a s' _ ih hs
    cases step_view hs with
    | reserve frame _ hbridge hverdicts hentered hawaiting => exact ih.reserve hbridge hverdicts
    | enter frame _ hbridge hverdicts hentered hawaiting =>
      exact ih.congr (by rw [hbridge]) (by rw [hbridge]) hverdicts
    | other _ _ hne htable hmax hverdicts hentered hawaiting => exact ih.congr htable hmax hverdicts

/-- The frames that enter the import handlers are those that the reference filter lets through
when it is fed the checked frames in the order of their dedup sections, whatever the threads
and the handlers do; and what it decides for a pair depends on the frames of that pair only. -/
theorem import_refines_reference (h : (importSystem options).Reachable s)
    (hpairs : s.pairs.card ≤ options.maxDedupEntries) :
    (s.history.entered : Multiset Frame) + s.awaiting =
        KeyedFilter.passed (referenceFilter.run KeyedFilter.empty s.checked) ∧
      ∀ pair, s.history.verdicts.filter (fun v => (v.1.topic, v.1.publisherId) = pair) =
        referenceFilter.run KeyedFilter.empty
          (s.checked.filter fun frame => (frame.topic, frame.publisherId) = pair) := by
  have hverdicts := (Refines.of_reachable h).verdicts hpairs
  constructor
  · rw [entered_add_awaiting h, accepted, hverdicts]
  · intro pair
    rw [hverdicts]
    exact KeyedFilter.run_filter (M := referenceFilter) rfl s.checked

/-- Two calls with one frame and one call with a frame of another pair, whose topic reads like
the key of the first. The handler throws, and the duplicate stays out all the same. -/
theorem import_refines_reference_near_keys :
    let first : Frame := { topic := [97], publisherId := 11, sequence := 5 }
    let second : Frame := { topic := [97, 10, 49], publisherId := 1, sequence := 3 }
    ∃ s : ImportState, s.history.entered = [second, first] ∧
      (s.history.entered : Multiset Frame) + s.awaiting =
        KeyedFilter.passed (referenceFilter.run KeyedFilter.empty s.checked) := by
  intro first second
  obtain ⟨s, hs, hp⟩ := (importSystem {}).exists_reachable_of_run
    { bridge := { maxDedupEntries := 4096, maxDedupEntries_pos := by decide } }
    [.addImport [97] {}, .addImport [97, 10, 49] {}, .receive first, .receive first,
      .receive second, .lookup first, .lookup first, .lookup second, .reserve first,
      .reserve second, .enter second, .enter first, .finish first true, .reserve first]
    (fun s => s.history.entered == [second, first] &&
      s.history.verdicts == [(first, true), (second, true), (first, false)])
    ⟨_, rfl, rfl⟩ (by decide +kernel)
  simp only [Bool.and_eq_true, beq_iff_eq] at hp
  have hpairs : s.pairs.card ≤ 4096 := by
    rw [pairs, checked, hp.2]
    decide
  exact ⟨s, hp.1, (import_refines_reference hs hpairs).1⟩

end ImportState
end RobotMiddleware
