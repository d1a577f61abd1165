import Mathlib.Data.Set.Card

/-! How many threads are at a point of their program, when any number of them may run. -/

universe u

namespace Census
variable {T : Type u} {p q : T → Prop} {n : ℕ} {t : T}

/-- Exactly `n` threads satisfy `p`. -/
def Count (p : T → Prop) (n : ℕ) : Prop :=
  {t | p t}.encard = n

theorem Count.zero (h : ∀ t, ¬ p t) : Count p 0 := by
  have hempty : {t | p t} = ∅ := Set.eq_empty_iff_forall_notMem.mpr h
  rw [Count, hempty, Set.encard_empty, Nat.cast_zero]

theorem Count.congr (h : Count p n) (hq : ∀ u, q u ↔ p u) : Count q n := by
  have hset : {u | q u} = {u | p u} := Set.ext hq
  rw [Count, hset]
  exact h

/-- One thread comes to the point. -/
theorem Count.enter (h : Count p n) (ht : ¬ p t) (hq : ∀ u, q u ↔ u = t ∨ p u) :
    Count q (n + 1) := by
  have hset : {u | q u} = insert t {u | p u} := Set.ext hq
  have hnew : t ∉ {u | p u} := ht
  rw [Count, hset, Set.encard_insert_of_notMem hnew, h, Nat.cast_add, Nat.cast_one]

/-- One thread leaves the point. -/
theorem Count.leave (h : Count p n) (ht : p t) (hq : ∀ u, q u ↔ u ≠ t ∧ p u) :
    ∃ m, n = m + 1 ∧ Count q m := by
  have hset : {u | q u} = {u | p u} \ {t} := by
    ext u
    simp only [Set.mem_ofPred_eq, Set.mem_sdiff, Set.mem_singleton_iff, hq u, and_comm]
  have hcard : {u | q u}.encard + 1 = n := by
    rw [hset, Set.encard_sdiff_singleton_add_one (by exact ht)]
    exact h
  have hfinite : {u | q u}.encard ≠ ⊤ := by
    intro htop
    rw [htop] at hcard
    cases hcard
  obtain ⟨m, hm⟩ := ENat.ne_top_iff_exists.mp hfinite
  refine ⟨m, ?_, hm.symm⟩
  rw [← hm] at hcard
  exact_mod_cast hcard.symm

end Census
