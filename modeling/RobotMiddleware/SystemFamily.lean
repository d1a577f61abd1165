import Mathlib.Logic.Function.Basic
import RobotMiddleware.TransitionSystem

/-! Any number of systems side by side, each of which takes its own steps. -/

universe u v w

namespace TransitionSystem
variable {R : Type w} {S : Type u} {A : Type v} [DecidableEq R] {M : R → TransitionSystem S A}

def family (M : R → TransitionSystem S A) : TransitionSystem (R → S) (R × A) where
  init x := ∀ r, (M r).init (x r)
  step x a := ((M a.1).step (x a.1) a.2).map (Function.update x a.1)

theorem family_step_eq_some {x y : R → S} {r : R} {a : A} :
    (family M).step x (r, a) = some y ↔
      ∃ s, (M r).step (x r) a = some s ∧ y = Function.update x r s := by
  simp only [family, Option.map_eq_some_iff, eq_comm]

theorem Reachable.member {x : R → S} (h : (family M).Reachable x) (r : R) :
    (M r).Reachable (x r) := by
  refine h.invariant (P := fun x => (M r).Reachable (x r)) ?_ ?_
  · intro x (hx : ∀ r, (M r).init (x r))
    exact .init (hx r)
  rintro x ⟨other, a⟩ y _ ih hstep
  obtain ⟨s, hs, rfl⟩ := family_step_eq_some.mp hstep
  by_cases hr : r = other
  · subst hr
    rw [Function.update_self]
    exact ih.step hs
  · rw [Function.update_of_ne hr]
    exact ih

/-- What the steps of every member keep under a condition on the actions. -/
theorem family_run_invariant (P : R → S → Prop) (ok : A → Prop)
    (hstep : ∀ r s a s', P r s → ok a → (M r).step s a = some s' → P r s')
    {actions : List (R × A)} (hok : ∀ a ∈ actions, ok a.2) {x y : R → S}
    (hrun : (family M).run x actions = some y) (h : ∀ r, P r (x r)) : ∀ r, P r (y r) := by
  induction actions generalizing x with
  | nil =>
    cases hrun
    exact h
  | cons a actions ih =>
    obtain ⟨other, a⟩ := a
    obtain ⟨next, hnext, hrest⟩ := Option.bind_eq_some_iff.mp hrun
    obtain ⟨s, hs, rfl⟩ := family_step_eq_some.mp hnext
    refine ih (fun b hb => hok b (List.mem_cons_of_mem _ hb)) hrest fun r => ?_
    by_cases hr : r = other
    · subst hr
      rw [Function.update_self]
      exact hstep r _ a s (h r) (hok _ (List.mem_cons_self ..)) hs
    · rw [Function.update_of_ne hr]
      exact h r

end TransitionSystem
