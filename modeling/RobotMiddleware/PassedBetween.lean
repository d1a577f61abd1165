import Mathlib.Data.List.Nodup
import Mathlib.Data.List.Perm.Subperm

/-! Two gates, one behind the other, and the items that have passed the first and not yet the
second. No item passes a gate twice. -/

universe u

/-- `first` and `second` are the items that passed the gates, in order; `p` are those in
between. -/
structure PassedBetween {α : Type u} (first second : List α) (p : α → Prop) : Prop where
  nodup_first : first.Nodup
  nodup_second : second.Nodup
  subset : ∀ x ∈ second, x ∈ first
  mem_iff : ∀ x, p x ↔ x ∈ first ∧ x ∉ second

namespace PassedBetween
variable {α : Type u} {first second : List α} {p q : α → Prop} {x : α}

theorem nil (h : ∀ x, ¬ p x) : PassedBetween ([] : List α) [] p where
  nodup_first := .nil
  nodup_second := .nil
  subset := nofun
  mem_iff x := iff_of_false (h x) fun hx => List.not_mem_nil hx.1

theorem congr (h : PassedBetween first second p) (hq : ∀ x, q x ↔ p x) :
    PassedBetween first second q :=
  { h with mem_iff := fun x => (hq x).trans (h.mem_iff x) }

/-- An item passes the first gate. -/
theorem enter (h : PassedBetween first second p) (hx : x ∉ first)
    (hq : ∀ y, q y ↔ y = x ∨ p y) : PassedBetween (first ++ [x]) second q where
  nodup_first := List.nodup_append.mpr ⟨h.nodup_first, List.nodup_singleton x, by
    rintro y hy z hz rfl
    exact hx (List.mem_singleton.mp hz ▸ hy)⟩
  nodup_second := h.nodup_second
  subset y hy := List.mem_append_left _ (h.subset y hy)
  mem_iff y := by
    rw [hq, h.mem_iff, List.mem_append, List.mem_singleton]
    constructor
    · rintro (rfl | ⟨hy, hout⟩)
      · exact ⟨.inr rfl, fun hy => hx (h.subset y hy)⟩
      · exact ⟨.inl hy, hout⟩
    · rintro ⟨hy | hy, hout⟩
      · exact .inr ⟨hy, hout⟩
      · exact .inl hy

/-- An item passes the second gate. -/
theorem leave (h : PassedBetween first second p) (hx : p x)
    (hq : ∀ y, q y ↔ y ≠ x ∧ p y) : PassedBetween first (second ++ [x]) q where
  nodup_first := h.nodup_first
  nodup_second := List.nodup_append.mpr ⟨h.nodup_second, List.nodup_singleton x, by
    rintro y hy z hz rfl
    exact ((h.mem_iff x).mp hx).2 (List.mem_singleton.mp hz ▸ hy)⟩
  subset y hy := by
    rcases List.mem_append.mp hy with hy | hy
    · exact h.subset y hy
    · exact List.mem_singleton.mp hy ▸ ((h.mem_iff x).mp hx).1
  mem_iff y := by
    rw [hq, h.mem_iff, List.mem_append, List.mem_singleton, not_or]
    tauto

theorem length_le (h : PassedBetween first second p) : second.length ≤ first.length :=
  (List.subperm_of_subset h.nodup_second h.subset).length_le

/-- With nothing in between both gates have been passed as often. -/
theorem length_eq (h : PassedBetween first second p) (hp : ∀ x, ¬ p x) :
    first.length = second.length := by
  have hsubset : ∀ x ∈ first, x ∈ second := by
    intro x hx
    by_contra hout
    exact hp x ((h.mem_iff x).mpr ⟨hx, hout⟩)
  exact Nat.le_antisymm (List.subperm_of_subset h.nodup_first hsubset).length_le h.length_le

end PassedBetween
