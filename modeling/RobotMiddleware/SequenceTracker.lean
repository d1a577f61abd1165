import Mathlib.Tactic
import RobotMiddleware.FirstOccurrences

/-! `SequenceTracker` of `benchmark/statistics.cpp`: an incremental count of lost, repeated
and reordered messages. Each member function holds the mutex throughout, so a run is a list
of calls. -/
namespace RobotMiddleware
open FirstOccurrences

instance sequenceOrder : LinearOrder (BitVec 64) where
  le_refl := BitVec.le_refl
  le_trans _ _ _ := BitVec.le_trans
  le_antisymm _ _ := BitVec.le_antisymm
  le_total x y := BitVec.le_total x y
  lt_iff_le_not_ge x y := by
    simp only [BitVec.le_def, BitVec.lt_def]
    omega
  toDecidableLE := inferInstance
  toDecidableLT := inferInstance
  toDecidableEq := inferInstance

structure SequenceTracker where
  seen : Finset (BitVec 64) := ∅
  hasHighest : Bool := false
  highest : BitVec 64 := 0
  duplicates : ℕ := 0
  outOfOrder : ℕ := 0

structure SequenceSummary where
  expected : ℕ
  uniqueReceived : ℕ
  lost : ℕ
  duplicates : ℕ
  outOfOrder : ℕ
  /-- The quotient itself; the source rounds it to a `double`. -/
  lossRate : ℚ

namespace SequenceTracker

def observe (tracker : SequenceTracker) (sequence : BitVec 64) : SequenceTracker :=
  if sequence ∈ tracker.seen then
    { tracker with duplicates := tracker.duplicates + 1 }
  else
    let tracker := { tracker with seen := insert sequence tracker.seen }
    let tracker :=
      if tracker.hasHighest ∧ sequence < tracker.highest then
        { tracker with outOfOrder := tracker.outOfOrder + 1 }
      else tracker
    if ¬ tracker.hasHighest ∨ tracker.highest < sequence then
      { tracker with highest := sequence, hasHighest := true }
    else tracker

def summary (tracker : SequenceTracker) (expectedMessages : ℕ) : SequenceSummary :=
  let uniqueReceived := tracker.seen.card
  let lost := if uniqueReceived < expectedMessages then expectedMessages - uniqueReceived else 0
  { expected := expectedMessages
    uniqueReceived
    lost
    duplicates := tracker.duplicates
    outOfOrder := tracker.outOfOrder
    lossRate := if expectedMessages = 0 then 0 else (lost : ℚ) / expectedMessages }

def clear (tracker : SequenceTracker) : SequenceTracker :=
  { tracker with
    seen := ∅, hasHighest := false, highest := 0, duplicates := 0, outOfOrder := 0 }

inductive Call
  | observe (sequence : BitVec 64)
  | clear

def call (tracker : SequenceTracker) : Call → SequenceTracker
  | .observe sequence => tracker.observe sequence
  | .clear => tracker.clear

def run (calls : List Call) : SequenceTracker :=
  calls.foldl call {}

def observedBy (sequences : List (BitVec 64)) : Call → List (BitVec 64)
  | .observe sequence => sequences ++ [sequence]
  | .clear => []

/-- The observations since construction or the last `clear`. -/
def observed (calls : List Call) : List (BitVec 64) :=
  calls.foldl observedBy []

/-! What the state says about the observations. -/

structure Counts (tracker : SequenceTracker) (sequences : List (BitVec 64)) : Prop where
  seen : tracker.seen = sequences.toFinset
  started : tracker.hasHighest = true ↔ sequences ≠ []
  highest_mem : tracker.hasHighest = true → tracker.highest ∈ sequences
  le_highest : ∀ y ∈ sequences, y ≤ tracker.highest
  duplicates : tracker.seen.card + tracker.duplicates = sequences.length
  outOfOrder : tracker.outOfOrder = (lateValues sequences).card

theorem Counts.empty : Counts {} [] where
  seen := rfl
  started := by simp
  highest_mem h := absurd h Bool.false_ne_true
  le_highest _ h := absurd h List.not_mem_nil
  duplicates := rfl
  outOfOrder := rfl

theorem toFinset_concat (sequences : List (BitVec 64)) (sequence : BitVec 64) :
    (sequences ++ [sequence]).toFinset = insert sequence sequences.toFinset := by
  ext y
  simp only [List.mem_toFinset, List.mem_append, List.mem_singleton, Finset.mem_insert]
  exact or_comm

section Observe
variable {tracker : SequenceTracker} {sequences : List (BitVec 64)} {sequence : BitVec 64}

/-- A repetition counts as a duplicate and nothing else. -/
theorem Counts.observe_repeated (h : Counts tracker sequences) (hmem : sequence ∈ sequences) :
    Counts (tracker.observe sequence) (sequences ++ [sequence]) := by
  have hseen : sequence ∈ tracker.seen := by
    rw [h.seen]
    exact List.mem_toFinset.mpr hmem
  have hset : (sequences ++ [sequence]).toFinset = sequences.toFinset := by
    rw [toFinset_concat]
    exact Finset.insert_eq_of_mem (List.mem_toFinset.mpr hmem)
  rw [observe, if_pos hseen]
  refine ⟨h.seen.trans hset.symm, ?_, fun hhigh => List.mem_append_left _ (h.highest_mem hhigh),
    ?_, ?_, ?_⟩
  · have hne : sequences ≠ [] := List.ne_nil_of_mem hmem
    have hhigh : tracker.hasHighest = true := h.started.mpr hne
    simp [hhigh]
  · intro y hy
    rcases List.mem_append.mp hy with hy | hy
    · exact h.le_highest y hy
    · rw [List.mem_singleton.mp hy]
      exact h.le_highest sequence hmem
  · have hcount := h.duplicates
    rw [List.length_append, List.length_singleton, ← hcount]
    exact (Nat.add_assoc _ _ _).symm
  · rw [lateValues_concat_of_mem hmem]
    exact h.outOfOrder

/-- A new value below the highest one is out of order. -/
theorem Counts.observe_late (h : Counts tracker sequences) (hnew : sequence ∉ sequences)
    (hhigh : tracker.hasHighest = true) (hlt : sequence < tracker.highest) :
    Counts (tracker.observe sequence) (sequences ++ [sequence]) := by
  have hseen : sequence ∉ tracker.seen := by
    rw [h.seen]
    exact fun hmem => hnew (List.mem_toFinset.mp hmem)
  have hstep : tracker.observe sequence = { tracker with
      seen := insert sequence tracker.seen, outOfOrder := tracker.outOfOrder + 1 } := by
    simp [observe, hseen, hhigh, hlt, lt_asymm hlt]
  rw [hstep]
  refine ⟨?_, by simp [hhigh], fun _ => List.mem_append_left _ (h.highest_mem hhigh), ?_, ?_, ?_⟩
  · rw [toFinset_concat, ← h.seen]
  · intro y hy
    rcases List.mem_append.mp hy with hy | hy
    · exact h.le_highest y hy
    · rw [List.mem_singleton.mp hy]
      exact hlt.le
  · have hcount := h.duplicates
    simp only [Finset.card_insert_of_notMem hseen, List.length_append, List.length_singleton]
    omega
  · rw [card_lateValues_concat_late hnew ⟨_, h.highest_mem hhigh, hlt⟩, ← h.outOfOrder]

/-- Any other new value becomes the highest one. -/
theorem Counts.observe_greatest (h : Counts tracker sequences) (hnew : sequence ∉ sequences)
    (hgreatest : tracker.hasHighest = true → tracker.highest < sequence) :
    Counts (tracker.observe sequence) (sequences ++ [sequence]) := by
  have hseen : sequence ∉ tracker.seen := by
    rw [h.seen]
    exact fun hmem => hnew (List.mem_toFinset.mp hmem)
  have hle : ∀ y ∈ sequences, y ≤ sequence := by
    intro y hy
    have hhigh : tracker.hasHighest = true := h.started.mpr (List.ne_nil_of_mem hy)
    exact (h.le_highest y hy).trans (hgreatest hhigh).le
  have hstep : tracker.observe sequence = { tracker with
      seen := insert sequence tracker.seen, highest := sequence, hasHighest := true } := by
    cases hhigh : tracker.hasHighest with
    | false => simp [observe, hseen, hhigh]
    | true =>
      have hlt := hgreatest hhigh
      simp [observe, hseen, hhigh, hlt, lt_asymm hlt]
  rw [hstep]
  refine ⟨?_, by simp, fun _ => List.mem_append_right _ List.mem_cons_self, ?_, ?_, ?_⟩
  · rw [toFinset_concat, ← h.seen]
  · intro y hy
    rcases List.mem_append.mp hy with hy | hy
    · exact hle y hy
    · exact (List.mem_singleton.mp hy).le
  · have hcount := h.duplicates
    simp only [Finset.card_insert_of_notMem hseen, List.length_append, List.length_singleton]
    omega
  · rw [lateValues_concat_greatest hnew hle]
    exact h.outOfOrder

theorem Counts.observe (h : Counts tracker sequences) :
    Counts (tracker.observe sequence) (sequences ++ [sequence]) := by
  by_cases hmem : sequence ∈ sequences
  · exact h.observe_repeated hmem
  · by_cases hlate : tracker.hasHighest = true ∧ sequence < tracker.highest
    · exact h.observe_late hmem hlate.1 hlate.2
    · apply h.observe_greatest hmem
      intro hhigh
      have hle : tracker.highest ≤ sequence := not_lt.mp fun hlt => hlate ⟨hhigh, hlt⟩
      apply lt_of_le_of_ne hle
      rintro rfl
      exact hmem (h.highest_mem hhigh)

end Observe

/-- Every run of calls counts the observations since the last `clear`. -/
theorem counts_run (calls : List Call) : Counts (run calls) (observed calls) := by
  induction calls using List.reverseRecOn with
  | nil => exact Counts.empty
  | append_singleton calls c ih =>
    rw [run, observed, List.foldl_append, List.foldl_append]
    cases c with
    | observe sequence => exact ih.observe
    | clear => exact Counts.empty

/-- No counter passes the number of observations, so 64 bits hold them all. -/
theorem Counts.le_length {tracker : SequenceTracker} {sequences : List (BitVec 64)}
    (h : Counts tracker sequences) :
    tracker.seen.card ≤ sequences.length ∧ tracker.duplicates ≤ sequences.length ∧
      tracker.outOfOrder ≤ sequences.length := by
  have hcount := h.duplicates
  have hlate : tracker.outOfOrder ≤ tracker.seen.card := by
    rw [h.outOfOrder, h.seen]
    exact Finset.card_le_card lateValues_subset
  omega

end SequenceTracker

/-- After any calls the summary describes the list of observations since the last `clear`:
the distinct values, the repetitions, the first occurrences that come after a greater value
and what is missing. Only the reordering depends on the order. -/
theorem sequence_tracker_counts (calls : List SequenceTracker.Call) (expected : ℕ) :
    let sequences := SequenceTracker.observed calls
    let result := (SequenceTracker.run calls).summary expected
    result.expected = expected ∧
    result.uniqueReceived = sequences.toFinset.card ∧
    result.uniqueReceived + result.duplicates = sequences.length ∧
    result.outOfOrder = (sequences.toFinset.filter fun v =>
      ∃ y ∈ sequences.take (sequences.idxOf v), v < y).card ∧
    (result.lost : ℤ) = max 0 ((expected : ℤ) - result.uniqueReceived) ∧
    (∀ calls', (SequenceTracker.observed calls').Perm sequences →
      let result' := (SequenceTracker.run calls').summary expected
      result'.uniqueReceived = result.uniqueReceived ∧
      result'.duplicates = result.duplicates ∧ result'.lost = result.lost) ∧
    (result.outOfOrder = 0 ↔ ∀ v ∈ sequences, ∀ w ∈ sequences,
      sequences.idxOf v < sequences.idxOf w → v < w) ∧
    (sequences ≠ [] → result.outOfOrder < result.uniqueReceived) := by
  intro sequences result
  have hcounts : (SequenceTracker.run calls).Counts sequences := SequenceTracker.counts_run calls
  have hunique : result.uniqueReceived = sequences.toFinset.card := by
    rw [← hcounts.seen]
    rfl
  have hlate : result.outOfOrder = (lateValues sequences).card := hcounts.outOfOrder
  refine ⟨rfl, hunique, hcounts.duplicates, ?_, ?_, ?_, ?_, ?_⟩
  · have hvalues : (sequences.toFinset.filter fun v =>
        ∃ y ∈ sequences.take (sequences.idxOf v), v < y) = lateValues sequences := by
      ext v
      rw [mem_lateValues, Finset.mem_filter, List.mem_toFinset, Late]
    rw [hvalues, hlate]
  · have hlost : result.lost = if result.uniqueReceived < expected then
        expected - result.uniqueReceived else 0 := rfl
    rw [hlost]
    split <;> omega
  · intro calls' hperm result'
    have hcounts' := SequenceTracker.counts_run calls'
    have hunique' : result'.uniqueReceived = result.uniqueReceived := by
      rw [hunique, ← List.toFinset_eq_of_perm _ _ hperm, ← hcounts'.seen]
      rfl
    have htotal : result.uniqueReceived + result.duplicates = sequences.length :=
      hcounts.duplicates
    have htotal' : result'.uniqueReceived + result'.duplicates = _ := hcounts'.duplicates
    have hlength := hperm.length_eq
    refine ⟨hunique', by omega, ?_⟩
    show (if result'.uniqueReceived < expected then expected - result'.uniqueReceived else 0) =
      if result.uniqueReceived < expected then expected - result.uniqueReceived else 0
    rw [hunique']
  · rw [hlate, Finset.card_eq_zero]
    exact lateValues_eq_empty_iff
  · intro hne
    rw [hlate, hunique]
    exact card_lateValues_lt hne

/-- The six observations of the repository's own test, after a `clear`. -/
theorem sequence_tracker_counts_reordered :
    let calls : List SequenceTracker.Call := [.observe 7, .clear, .observe 100, .observe 101,
      .observe 103, .observe 103, .observe 102, .observe 106]
    let result := (SequenceTracker.run calls).summary 7
    result.uniqueReceived = 5 ∧ result.lost = 2 ∧ result.duplicates = 1 ∧
      result.outOfOrder = 1 ∧ result.outOfOrder < result.uniqueReceived := by
  intro calls result
  have hcounts := sequence_tracker_counts calls 7
  exact ⟨by decide, by decide, by decide, by decide,
    hcounts.2.2.2.2.2.2.2 (by decide)⟩

end RobotMiddleware
