import RobotMiddleware.TransitionSystem

/-! A record kept beside a transition system. The record sees the actions and never restricts
them, so every run of the system has its record. -/

universe u v w

namespace TransitionSystem
variable {S : Type u} {A : Type v} {O : Type w} {M : TransitionSystem S A} {empty : O}
  {note : S → A → O → O} {ok : S → A → Prop}

/-- The system with a record that is `empty` at first; `note` says what an action adds to it,
from the state that the action is taken in. -/
def recorded (M : TransitionSystem S A) (empty : O) (note : S → A → O → O) :
    TransitionSystem (S × O) A where
  init x := M.init x.1 ∧ x.2 = empty
  step x a := (M.step x.1 a).map fun s => (s, note x.1 a x.2)

theorem recorded_step_iff {x y : S × O} {a : A} : (M.recorded empty note).step x a = some y ↔
    M.step x.1 a = some y.1 ∧ y.2 = note x.1 a x.2 := by
  obtain ⟨s, o⟩ := y
  simp only [recorded, Option.map_eq_some_iff, Prod.mk.injEq]
  constructor
  · rintro ⟨s', hstep, rfl, rfl⟩
    exact ⟨hstep, rfl⟩
  · rintro ⟨hstep, rfl⟩
    exact ⟨s, hstep, rfl, rfl⟩

/-- Without its record a run is a run of the system. -/
theorem ReachableVia.of_recorded {x : S × O}
    (h : (M.recorded empty note).ReachableVia (fun y a => ok y.1 a) x) :
    M.ReachableVia ok x.1 := by
  induction h with
  | init h => exact .init h.1
  | step _ hok hstep ih => exact ih.step hok (recorded_step_iff.mp hstep).1

theorem Reachable.of_recorded {x : S × O} (h : (M.recorded empty note).Reachable x) :
    M.Reachable x.1 :=
  ReachableVia.of_recorded h

end TransitionSystem
