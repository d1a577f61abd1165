import RobotMiddleware.BridgeModel
import RobotMiddleware.KeyedFilter

/-! The dedup section against a filter that is keyed by the pair (topic, publisher) itself. -/
namespace RobotMiddleware

/-! The string key tells the pairs apart, whatever bytes a topic has. -/

theorem digit_byte {d : ℕ} (h : d < 10) : (BitVec.ofNat 8 (48 + d)).toNat = 48 + d := by
  rw [BitVec.toNat_ofNat, Nat.mod_eq_of_lt]
  omega

theorem newline_notMem_decimal (n : ℕ) : (10 : Byte) ∉ decimal n := by
  unfold decimal
  split
  · decide
  · intro h
    obtain ⟨d, hd, hbyte⟩ := List.mem_map.mp h
    have hlt : d < 10 := Nat.digits_lt_base (by norm_num) (List.mem_reverse.mp hd)
    have hnat := congrArg BitVec.toNat hbyte
    rw [digit_byte hlt] at hnat
    have hten : (10 : Byte).toNat = 10 := rfl
    omega

theorem decimal_injective : Function.Injective decimal := by
  -- the number is read back from its digits
  have hread (n : ℕ) :
      Nat.ofDigits 10 ((decimal n).reverse.map fun b => b.toNat - 48) = n := by
    unfold decimal
    split
    case isTrue hzero => rw [hzero]; rfl
    case isFalse =>
      have hdigits : ((Nat.digits 10 n).map fun d => (BitVec.ofNat 8 (48 + d)).toNat - 48) =
          Nat.digits 10 n := by
        calc (Nat.digits 10 n).map (fun d => (BitVec.ofNat 8 (48 + d)).toNat - 48)
            = (Nat.digits 10 n).map id := by
              apply List.map_congr_left
              intro d hd
              rw [digit_byte (Nat.digits_lt_base (by norm_num) hd), Nat.add_sub_cancel_left]
              rfl
          _ = Nat.digits 10 n := List.map_id _
      rw [← List.map_reverse, List.reverse_reverse, List.map_map]
      exact (congrArg (Nat.ofDigits 10) hdigits).trans (Nat.ofDigits_digits 10 n)
  intro n m h
  rw [← hread n, h, hread m]

/-- The last separator splits a string, when it does not occur after it. -/
theorem append_separator_inj {α : Type} {sep : α} {as bs cs ds : List α} (hcs : sep ∉ cs)
    (hds : sep ∉ ds) (h : as ++ sep :: cs = bs ++ sep :: ds) : as = bs ∧ cs = ds := by
  -- if one separator came before the other, it would occur after it
  have hsplit : ∀ (xs ys us vs : List α), sep ∉ us → xs ++ sep :: us = ys ++ sep :: vs →
      ∀ mid, ys = xs ++ mid → mid = [] := by
    intro xs ys us vs hus hxy mid hys
    subst hys
    rw [List.append_assoc] at hxy
    have htail := List.append_cancel_left hxy
    cases mid with
    | nil => rfl
    | cons m mid =>
      obtain ⟨-, rfl⟩ := List.cons.inj htail
      exact absurd (by simp) hus
  rcases List.append_eq_append_iff.mp h with ⟨mid, hbs, -⟩ | ⟨mid, has, -⟩
  · obtain rfl := hsplit as bs cs ds hcs h mid hbs
    rw [List.append_nil] at hbs
    subst hbs
    exact ⟨rfl, (List.cons.inj (List.append_cancel_left h)).2⟩
  · obtain rfl := hsplit bs as ds cs hds h.symm mid has
    rw [List.append_nil] at has
    subst has
    exact ⟨rfl, (List.cons.inj (List.append_cancel_left h)).2⟩

theorem duplicateKey_injective {topic topic' : Bytes} {publisherId publisherId' : BitVec 64}
    (h : duplicateKey topic publisherId = duplicateKey topic' publisherId') :
    topic = topic' ∧ publisherId = publisherId' := by
  obtain ⟨htopic, hdecimal⟩ := append_separator_inj (newline_notMem_decimal _)
    (newline_notMem_decimal _) h
  exact ⟨htopic, BitVec.eq_of_toNat_eq (decimal_injective hdecimal)⟩

/-- The abstract filter: per pair it remembers the last frame it let through; a later one
passes if its sequence is greater, or if it is 0 and its send time is greater. -/
def referenceFilter : KeyedFilter (Bytes × BitVec 64) SequenceState Frame where
  key frame := (frame.topic, frame.publisherId)
  value frame := ⟨frame.sequence, frame.sendTimeNs⟩
  admits last frame := last.highest < frame.sequence ∨
    frame.sequence = 0 ∧ last.latestSendTimeNs < frame.sendTimeNs

/-! The size of a table. -/

section Table
variable {α : Type} {β : α → Type} [DecidableEq α] {table : AList β} {a : α} {b : β a}

theorem length_keys_insert_of_mem (h : a ∈ table) :
    (table.insert a b).keys.length = table.keys.length := by
  have hpos := List.length_pos_of_mem (AList.mem_keys.mp h)
  rw [AList.keys_insert, List.length_cons, List.length_erase_of_mem (AList.mem_keys.mp h),
    Nat.sub_add_cancel hpos]

theorem length_keys_insert_of_notMem (h : a ∉ table) :
    (table.insert a b).keys.length = table.keys.length + 1 := by
  rw [AList.keys_insert, List.length_cons, List.erase_of_not_mem fun hmem => h hmem]

end Table

namespace BridgeImport
variable {b : BridgeImport} {frame : Frame}

def frameKey (frame : Frame) : Bytes :=
  duplicateKey frame.topic frame.publisherId

inductive ReserveView (b : BridgeImport) (frame : Frame) : BridgeImport × Bool → Prop
  | duplicate (found : SequenceState) : b.highestSequences.lookup (frameKey frame) = some found →
      referenceFilter.admits found frame = false →
      ReserveView b frame ({ b with duplicateFrames := b.duplicateFrames + 1 }, false)
  | advanced (found : SequenceState) : b.highestSequences.lookup (frameKey frame) = some found →
      referenceFilter.admits found frame = true →
      ReserveView b frame ({ b with
        highestSequences := b.highestSequences.insert (frameKey frame)
          ⟨frame.sequence, frame.sendTimeNs⟩ }, true)
  | fresh : b.highestSequences.lookup (frameKey frame) = none →
      b.highestSequences.keys.length < b.maxDedupEntries →
      ReserveView b frame ({ b with
        highestSequences := b.highestSequences.insert (frameKey frame)
          ⟨frame.sequence, frame.sendTimeNs⟩ }, true)
  | cleared : b.highestSequences.lookup (frameKey frame) = none →
      b.maxDedupEntries ≤ b.highestSequences.keys.length →
      ReserveView b frame ({ b with
        highestSequences := AList.insert (frameKey frame)
          ⟨frame.sequence, frame.sendTimeNs⟩ ∅ }, true)

theorem create_eq_ok {options : NetworkBridgeOptions} (h : create options = .ok b) :
    b.maxDedupEntries = options.maxDedupEntries ∧ b.highestSequences = ∅ := by
  unfold create at h
  split at h
  · cases h
  · cases h
    exact ⟨rfl, rfl⟩

theorem admits_iff (found : SequenceState) (frame : Frame) :
    referenceFilter.admits found frame = true ↔
      ¬ (frame.sequence ≤ found.highest ∧
        ¬ (frame.sequence = 0 ∧ found.latestSendTimeNs < frame.sendTimeNs)) := by
  simp only [referenceFilter, decide_eq_true_eq, ← BitVec.not_le]
  tauto

theorem reserve_view (b : BridgeImport) (frame : Frame) :
    ReserveView b frame (b.reserve frame) := by
  cases hfound : b.highestSequences.lookup (duplicateKey frame.topic frame.publisherId) with
  | some found =>
    simp only [reserve, hfound]
    split
    case isTrue hstale =>
      apply ReserveView.duplicate found hfound
      rw [← Bool.not_eq_true, admits_iff]
      exact not_not.mpr hstale
    case isFalse hnew => exact .advanced found hfound ((admits_iff found frame).mpr hnew)
  | none =>
    simp only [reserve, hfound]
    split
    case isTrue hfull => exact .cleared hfound hfull
    case isFalse hroom => exact .fresh hfound (not_le.mp hroom)

/-- A pair that is not remembered is let through. -/
theorem reserve_of_lookup_eq_none (h : b.highestSequences.lookup (frameKey frame) = none) :
    (b.reserve frame).2 = true := by
  have hview := b.reserve_view frame
  generalize b.reserve frame = r at hview
  cases hview with
  | duplicate found hfound => cases h.symm.trans hfound
  | advanced => rfl
  | fresh => rfl
  | cleared => rfl

def Represents (b : BridgeImport) (cells : Bytes × BitVec 64 → Option SequenceState) : Prop :=
  ∀ topic publisherId,
    b.highestSequences.lookup (duplicateKey topic publisherId) = cells (topic, publisherId)

variable {cells : Bytes × BitVec 64 → Option SequenceState}

theorem reserve_verdict (h : b.Represents cells) :
    (b.reserve frame).2 = referenceFilter.verdict cells frame := by
  have hcell : b.highestSequences.lookup (frameKey frame) = cells (referenceFilter.key frame) :=
    h frame.topic frame.publisherId
  have hview := b.reserve_view frame
  rw [KeyedFilter.verdict, ← hcell]
  generalize b.reserve frame = r at hview
  cases hview with
  | duplicate found hfound hrefused => rw [hfound]; exact hrefused.symm
  | advanced found hfound hadmitted => rw [hfound]; exact hadmitted.symm
  | fresh hnone hroom => rw [hnone]
  | cleared hnone hfull => rw [hnone]

theorem insert_represents {table : AList fun _ : Bytes => SequenceState}
    (h : ∀ topic publisherId,
      table.lookup (duplicateKey topic publisherId) = cells (topic, publisherId))
    (frame : Frame) (topic : Bytes) (publisherId : BitVec 64) :
    (table.insert (frameKey frame) ⟨frame.sequence, frame.sendTimeNs⟩).lookup
        (duplicateKey topic publisherId) =
      Function.update cells (referenceFilter.key frame) (some (referenceFilter.value frame))
        (topic, publisherId) := by
  by_cases hkey : (topic, publisherId) = referenceFilter.key frame
  · obtain ⟨rfl, rfl⟩ := Prod.mk.inj hkey
    rw [hkey, Function.update_self]
    exact AList.lookup_insert _
  · rw [Function.update_of_ne hkey, ← h]
    apply AList.lookup_insert_ne
    intro hsame
    obtain ⟨rfl, rfl⟩ := duplicateKey_injective hsame
    exact hkey rfl

/-- While there is room for new pairs the dedup section is a step of the abstract filter. -/
theorem reserve_represents (h : b.Represents cells)
    (hroom : cells (referenceFilter.key frame) = none →
      b.highestSequences.keys.length < b.maxDedupEntries) :
    (b.reserve frame).1.Represents (referenceFilter.step cells frame) := by
  have hverdict : (b.reserve frame).2 = referenceFilter.verdict cells frame := reserve_verdict h
  have hcell : b.highestSequences.lookup (frameKey frame) = cells (referenceFilter.key frame) :=
    h frame.topic frame.publisherId
  have hview := b.reserve_view frame
  rw [KeyedFilter.step, ← hverdict]
  generalize b.reserve frame = r at hview
  cases hview with
  | duplicate found hfound hrefused => exact h
  | advanced found hfound hadmitted => exact insert_represents h frame
  | fresh hnone hlt => exact insert_represents h frame
  | cleared hnone hfull =>
    rw [hcell] at hnone
    exact absurd (hroom hnone) (not_lt.mpr hfull)

theorem maxDedupEntries_reserve (b : BridgeImport) (frame : Frame) :
    (b.reserve frame).1.maxDedupEntries = b.maxDedupEntries := by
  have hview := b.reserve_view frame
  generalize b.reserve frame = r at hview
  cases hview with
  | duplicate => rfl
  | advanced => rfl
  | fresh => rfl
  | cleared => rfl

theorem mem_keys_reserve {key : Bytes} (h : key ∈ (b.reserve frame).1.highestSequences.keys) :
    key = frameKey frame ∨ key ∈ b.highestSequences.keys := by
  have hview := b.reserve_view frame
  generalize b.reserve frame = r at h hview
  have hinsert {table : AList fun _ : Bytes => SequenceState} {state : SequenceState}
      (hmem : key ∈ (table.insert (frameKey frame) state).keys) :
      key = frameKey frame ∨ key ∈ table.keys := by
    rw [← AList.mem_keys, AList.mem_insert] at hmem
    exact hmem
  cases hview with
  | duplicate => exact .inr h
  | advanced => exact hinsert h
  | fresh => exact hinsert h
  | cleared =>
    rcases hinsert h with hkey | hempty
    · exact .inl hkey
    · cases hempty

/-- The table never outgrows its bound. -/
theorem length_keys_reserve (h : b.highestSequences.keys.length ≤ b.maxDedupEntries) :
    (b.reserve frame).1.highestSequences.keys.length ≤
      (b.reserve frame).1.maxDedupEntries := by
  have hview := b.reserve_view frame
  generalize b.reserve frame = r at hview
  cases hview with
  | duplicate => exact h
  | advanced found hfound hadmitted =>
    have hmem : frameKey frame ∈ b.highestSequences := by
      rw [← AList.lookup_isSome, hfound]
      rfl
    exact (length_keys_insert_of_mem hmem).trans_le h
  | fresh hnone hroom =>
    have hnot : frameKey frame ∉ b.highestSequences := AList.lookup_eq_none.mp hnone
    exact (length_keys_insert_of_notMem hnot).trans_le hroom
  | cleared =>
    have hsingle : (AList.insert (frameKey frame) (⟨frame.sequence, frame.sendTimeNs⟩ :
        SequenceState) (∅ : AList fun _ : Bytes => SequenceState)).keys.length = 1 := rfl
    rw [hsingle]
    exact b.maxDedupEntries_pos

end BridgeImport
end RobotMiddleware
