import Mathlib.Tactic

/-! The values of a list in the order in which they first occur. Where a value first occurs
is its `idxOf`; it is late there if a greater value came before. -/

universe u

namespace FirstOccurrences
variable {α : Type u} [LinearOrder α]

/-- A greater value stands before the first occurrence of `v`. -/
def Late (xs : List α) (v : α) : Prop :=
  ∃ y ∈ xs.take (xs.idxOf v), v < y

instance (xs : List α) (v : α) : Decidable (Late xs v) :=
  inferInstanceAs (Decidable (∃ y ∈ xs.take (xs.idxOf v), v < y))

def lateValues (xs : List α) : Finset α :=
  xs.toFinset.filter (Late xs)

def Increasing (xs : List α) : Prop :=
  ∀ v ∈ xs, ∀ w ∈ xs, xs.idxOf v < xs.idxOf w → v < w

variable {xs : List α} {v x : α}

theorem mem_lateValues : v ∈ lateValues xs ↔ v ∈ xs ∧ Late xs v := by
  rw [lateValues, Finset.mem_filter, List.mem_toFinset]

theorem lateValues_subset : lateValues xs ⊆ xs.toFinset :=
  Finset.filter_subset _ _

/-! One more value at the end. -/

theorem late_concat_of_mem (hv : v ∈ xs) : Late (xs ++ [x]) v ↔ Late xs v := by
  have hle : xs.idxOf v ≤ xs.length := (List.idxOf_lt_length_of_mem hv).le
  rw [Late, Late, List.idxOf_append_of_mem hv, List.take_append_of_le_length hle]

theorem late_concat_self (hx : x ∉ xs) : Late (xs ++ [x]) x ↔ ∃ y ∈ xs, x < y := by
  have hidx : (xs ++ [x]).idxOf x = xs.length := by
    rw [List.idxOf_append_of_notMem hx, List.idxOf_cons_self, Nat.add_zero]
  rw [Late, hidx, List.take_left]

theorem lateValues_concat_of_mem (hx : x ∈ xs) : lateValues (xs ++ [x]) = lateValues xs := by
  ext v
  rw [mem_lateValues, mem_lateValues, List.mem_append, List.mem_singleton]
  constructor
  · rintro ⟨hv | rfl, hlate⟩
    · exact ⟨hv, (late_concat_of_mem hv).mp hlate⟩
    · exact ⟨hx, (late_concat_of_mem hx).mp hlate⟩
  · rintro ⟨hv, hlate⟩
    exact ⟨.inl hv, (late_concat_of_mem hv).mpr hlate⟩

/-- A new value is late exactly if a greater one is there. -/
theorem mem_lateValues_concat (hx : x ∉ xs) :
    v ∈ lateValues (xs ++ [x]) ↔ v ∈ lateValues xs ∨ (v = x ∧ ∃ y ∈ xs, x < y) := by
  rw [mem_lateValues, mem_lateValues, List.mem_append, List.mem_singleton]
  constructor
  · rintro ⟨hv | rfl, hlate⟩
    · exact .inl ⟨hv, (late_concat_of_mem hv).mp hlate⟩
    · exact .inr ⟨rfl, (late_concat_self hx).mp hlate⟩
  · rintro (⟨hv, hlate⟩ | ⟨rfl, hlate⟩)
    · exact ⟨.inl hv, (late_concat_of_mem hv).mpr hlate⟩
    · exact ⟨.inr rfl, (late_concat_self hx).mpr hlate⟩

theorem card_lateValues_concat_late (hx : x ∉ xs) (hlate : ∃ y ∈ xs, x < y) :
    (lateValues (xs ++ [x])).card = (lateValues xs).card + 1 := by
  have hnew : x ∉ lateValues xs := fun h => hx (mem_lateValues.mp h).1
  rw [← Finset.card_insert_of_notMem hnew]
  congr 1
  ext v
  rw [mem_lateValues_concat hx, Finset.mem_insert]
  constructor
  · rintro (hv | ⟨rfl, -⟩)
    · exact .inr hv
    · exact .inl rfl
  · rintro (rfl | hv)
    · exact .inr ⟨rfl, hlate⟩
    · exact .inl hv

theorem lateValues_concat_greatest (hx : x ∉ xs) (hgreatest : ∀ y ∈ xs, y ≤ x) :
    lateValues (xs ++ [x]) = lateValues xs := by
  ext v
  rw [mem_lateValues_concat hx]
  constructor
  · rintro (hv | ⟨-, y, hy, hlt⟩)
    · exact hv
    · exact absurd hlt (not_lt.mpr (hgreatest y hy))
  · exact .inl

/-! The whole list. -/

/-- The first value of all is never late. -/
theorem card_lateValues_lt (hne : xs ≠ []) : (lateValues xs).card < xs.toFinset.card := by
  obtain ⟨x, rest, rfl⟩ := List.exists_cons_of_ne_nil hne
  apply Finset.card_lt_card
  refine ⟨lateValues_subset, fun hsubset => ?_⟩
  have hlate := hsubset (List.mem_toFinset.mpr List.mem_cons_self)
  obtain ⟨y, hy, -⟩ := (mem_lateValues.mp hlate).2
  rw [List.idxOf_cons_self] at hy
  exact List.not_mem_nil hy

theorem lateValues_eq_empty_iff : lateValues xs = ∅ ↔ Increasing xs := by
  rw [Finset.eq_empty_iff_forall_notMem]
  constructor
  · intro hnone v hv w hw hidx
    have hbefore : v ∈ xs.take (xs.idxOf w) := (List.mem_take_iff_idxOf_lt hv).mpr hidx
    have hle : v ≤ w := not_lt.mp fun hlt => hnone w (mem_lateValues.mpr ⟨hw, v, hbefore, hlt⟩)
    apply lt_of_le_of_ne hle
    rintro rfl
    exact lt_irrefl _ hidx
  · intro hincreasing w hlate
    obtain ⟨hw, y, hy, hlt⟩ := mem_lateValues.mp hlate
    have hyxs : y ∈ xs := List.mem_of_mem_take hy
    have hidx : xs.idxOf y < xs.idxOf w := (List.mem_take_iff_idxOf_lt hyxs).mp hy
    exact lt_asymm hlt (hincreasing y hyxs w hw hidx)

end FirstOccurrences
