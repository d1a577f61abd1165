import Mathlib.Data.List.Nodup
import Mathlib.Data.List.Sublists

/-! Lists that are subsequences of one duplicate-free list agree on the order of what they
have in common. -/

universe u

namespace CommonOrder
variable {α : Type u} {a b : α} {l l' order : List α}

/-- `a` comes before `b` in the list. -/
def Before (l : List α) (a b : α) : Prop := [a, b].Sublist l

theorem Before.mono (h : Before l a b) (hl : l.Sublist l') : Before l' a b := h.trans hl

/-- Two members of a list are the same or one is before the other. -/
theorem before_or_before (ha : a ∈ l) (hb : b ∈ l) : a = b ∨ Before l a b ∨ Before l b a := by
  induction l with
  | nil => cases ha
  | cons c l ih =>
    rcases List.mem_cons.mp ha with rfl | hatail <;> rcases List.mem_cons.mp hb with rfl | hbtail
    · exact .inl rfl
    · exact .inr (.inl ((List.singleton_sublist.mpr hbtail).cons_cons a))
    · exact .inr (.inr ((List.singleton_sublist.mpr hatail).cons_cons b))
    · rcases ih hatail hbtail with h | h | h
      · exact .inl h
      · exact .inr (.inl (h.mono (List.sublist_cons_self c l)))
      · exact .inr (.inr (h.mono (List.sublist_cons_self c l)))

/-- Without duplicates no two members are before each other. -/
theorem Before.asymm (h : Before order a b) (hnodup : order.Nodup) : ¬ Before order b a := by
  induction order with
  | nil => cases h
  | cons c order ih =>
    obtain ⟨hnew, hnodup⟩ := List.nodup_cons.mp hnodup
    intro hback
    rcases List.sublist_cons_iff.mp h with htail | ⟨r, hr, hrest⟩ <;>
      rcases List.sublist_cons_iff.mp hback with hbacktail | ⟨r', hr', hbackrest⟩
    · exact ih htail hnodup hbacktail
    · -- the head is `b`, which `h` finds in the tail
      cases hr'
      exact hnew (htail.subset (by simp))
    · cases hr
      exact hnew (hbacktail.subset (by simp))
    · cases hr
      cases hr'
      exact hnew (List.singleton_sublist.mp hrest)

/-- Two subsequences agree on the order of two common members. -/
theorem Before.agree (hnodup : order.Nodup) (hl : l.Sublist order) (hl' : l'.Sublist order)
    (h : Before l a b) (ha : a ∈ l') (hb : b ∈ l') : Before l' a b := by
  rcases before_or_before ha hb with rfl | h' | h'
  · exact absurd (h.mono hl) ((h.mono hl).asymm hnodup)
  · exact h'
  · exact absurd (h'.mono hl') ((h.mono hl).asymm hnodup)

end CommonOrder
