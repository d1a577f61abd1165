import Mathlib.Data.Option.Basic
import Mathlib.Logic.Function.Basic

/-! Mutexes that are held exactly in a part of the program text, as `std::lock_guard` holds them:
where a thread is says whether it has the mutex. -/

universe u v

namespace ScopedLock
variable {T : Type u} {C : Type v} {mutex mutex' : Option T} {t u : T}
  {calls : T → C} {holds : C → Bool}

/-- The mutex when a thread goes from a place where it is `held` to one where it is `holding`;
`none` if the thread has to wait. -/
def pass (mutex : Option T) (t : T) (held holding : Bool) : Option (Option T) :=
  match held, holding with
  | false, true => if mutex = none then some (some t) else none
  | true, false => some none
  | _, _ => some mutex

/-- Nobody waits who has the mutex already, or needs it no more, or finds it free. -/
theorem exists_pass {held holding : Bool}
    (h : holding = true → held = true ∨ mutex = none) :
    ∃ mutex', pass mutex t held holding = some mutex' := by
  unfold pass
  cases held <;> cases holding
  · exact ⟨mutex, rfl⟩
  · have hfree : mutex = none := (h rfl).resolve_left Bool.false_ne_true
    exact ⟨some t, if_pos hfree⟩
  · exact ⟨none, rfl⟩
  · exact ⟨mutex, rfl⟩

/-- The mutex belongs to the thread that is where it is held, if there is one. -/
def Held (mutex : Option T) (calls : T → C) (holds : C → Bool) : Prop :=
  ∀ t, mutex = some t ↔ holds (calls t) = true

theorem Held.eq (h : Held mutex calls holds) (ht : holds (calls t) = true)
    (hu : holds (calls u) = true) : t = u :=
  Option.some.inj (((h t).mpr ht).symm.trans ((h u).mpr hu))

/-- The mutex is free where no thread is at a place where it is held. -/
theorem Held.eq_none (h : Held mutex calls holds) (hnone : ∀ t, holds (calls t) = false) :
    mutex = none := by
  refine Option.eq_none_iff_forall_ne_some.mpr fun t ht => ?_
  have hholds : holds (calls t) = true := (h t).mp ht
  exact Bool.false_ne_true ((hnone t).symm.trans hholds)

variable [DecidableEq T]

/-- One thread moves on, and takes or leaves the mutex with it. -/
theorem Held.pass {call : C} (h : Held mutex calls holds)
    (hpass : pass mutex t (holds (calls t)) (holds call) = some mutex') :
    Held mutex' (Function.update calls t call) holds := by
  intro u
  by_cases hut : u = t
  · subst hut
    rw [Function.update_self]
    have hself := h u
    unfold ScopedLock.pass at hpass
    grind
  · rw [Function.update_of_ne hut]
    have hself := h t
    have hother := h u
    unfold ScopedLock.pass at hpass
    grind

end ScopedLock
