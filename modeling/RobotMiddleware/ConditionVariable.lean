import RobotMiddleware.Census

/-! Condition variables: the threads asleep on one, and the wakeups that are under way for the
units of a resource they wait for. -/

universe u

namespace ConditionVariable
variable {T : Type u} [DecidableEq T]

structure WaitSet (T : Type u) where
  asleep : List T := []
  deriving DecidableEq

namespace WaitSet
variable {w w' : WaitSet T} {t u : T}

def sleep (w : WaitSet T) (t : T) : WaitSet T :=
  { asleep := t :: w.asleep }

/-- A thread gets out of the wait set, notified or not. -/
def wake (w : WaitSet T) (t : T) : WaitSet T :=
  { asleep := w.asleep.filter fun u => u ≠ t }

/-- `notify_one` wakes some thread of the wait set, and does nothing only when there is none. -/
def notifyOne (w : WaitSet T) : Option T → Option (WaitSet T)
  | some t => if t ∈ w.asleep then some (w.wake t) else none
  | none => if w.asleep = [] then some w else none

def notifyAll (_ : WaitSet T) : WaitSet T := {}

omit [DecidableEq T] in
@[simp] theorem mem_sleep : u ∈ (w.sleep t).asleep ↔ u = t ∨ u ∈ w.asleep :=
  List.mem_cons

@[simp] theorem mem_wake : u ∈ (w.wake t).asleep ↔ u ∈ w.asleep ∧ u ≠ t := by
  simp [wake]

omit [DecidableEq T] in
@[simp] theorem asleep_notifyAll : w.notifyAll.asleep = [] := rfl

theorem notifyOne_eq_some {target : Option T} (h : w.notifyOne target = some w') :
    (∃ u, target = some u ∧ u ∈ w.asleep ∧ w' = w.wake u) ∨
      (target = none ∧ w.asleep = [] ∧ w' = w) := by
  cases target with
  | none =>
    obtain ⟨hempty, h⟩ := Option.ite_none_right_eq_some.mp h
    exact .inr ⟨rfl, hempty, (Option.some.inj h).symm⟩
  | some u =>
    obtain ⟨hu, h⟩ := Option.ite_none_right_eq_some.mp h
    exact .inl ⟨u, rfl, hu, (Option.some.inj h).symm⟩

end WaitSet

/-- Enough threads see to the units that the sleepers wait for: `helps` holds of a thread that
has a notification to make, or that woke up and has not looked yet. -/
def Covered (w : WaitSet T) (helps : T → Prop) (units : ℕ) : Prop :=
  ∃ n, Census.Count helps n ∧ (w.asleep ≠ [] → units ≤ n)

namespace Covered
variable {w w' : WaitSet T} {helps helps' : T → Prop} {units units' : ℕ} {t u : T}

omit [DecidableEq T]

theorem initial (hw : w.asleep = []) (hhelps : ∀ t, ¬ helps t) : Covered w helps units :=
  ⟨0, .zero hhelps, fun hne => absurd hw hne⟩

/-- The helpers stay and nothing is added for them to do. -/
theorem quiet (h : Covered w helps units) (hhelps : ∀ u, helps' u ↔ helps u)
    (hw : w'.asleep ≠ [] → w.asleep ≠ []) (hunits : units' ≤ units) :
    Covered w' helps' units' := by
  obtain ⟨n, hn, hle⟩ := h
  refine ⟨n, hn.congr hhelps, ?_⟩
  intro hne
  exact hunits.trans (hle (hw hne))

/-- One thread moves. It may bring a unit when it comes to help, and when it stops helping it
takes a unit or leaves none behind. -/
theorem move (h : Covered w helps units) (hother : ∀ u, u ≠ t → (helps' u ↔ helps u))
    (hw : w'.asleep ≠ [] → w.asleep ≠ [] ∨ units' = 0)
    (hstay : (helps' t ↔ helps t) → units' ≤ units)
    (henter : helps' t → ¬ helps t → units' ≤ units + 1)
    (hleave : helps t → ¬ helps' t → w'.asleep ≠ [] → units' + 1 ≤ units ∨ units' = 0) :
    Covered w' helps' units' := by
  obtain ⟨n, hn, hle⟩ := h
  have hbound (m : ℕ) (hunits : w'.asleep ≠ [] → units ≤ n → units' ≤ m) :
      w'.asleep ≠ [] → units' ≤ m := by
    intro hne
    rcases hw hne with hne' | hzero
    · exact hunits hne (hle hne')
    · omega
  by_cases hbefore : helps t <;> by_cases hafter : helps' t
  · have hhelps (u : T) : helps' u ↔ helps u := by
      by_cases hu : u = t
      · rw [hu]
        exact iff_of_true hafter hbefore
      · exact hother u hu
    have hunits := hstay (hhelps t)
    exact ⟨n, hn.congr hhelps, hbound n (by omega)⟩
  · have hhelps (u : T) : helps' u ↔ u ≠ t ∧ helps u := by
      by_cases hu : u = t
      · rw [hu]
        exact iff_of_false hafter (fun h => h.1 rfl)
      · simp only [hother u hu, ne_eq, hu, not_false_eq_true, true_and]
    obtain ⟨m, rfl, hm⟩ := hn.leave hbefore hhelps
    refine ⟨m, hm, hbound m ?_⟩
    intro hne hle
    have hunits := hleave hbefore hafter hne
    omega
  · have hhelps (u : T) : helps' u ↔ u = t ∨ helps u := by
      by_cases hu : u = t
      · rw [hu]
        exact iff_of_true hafter (.inl rfl)
      · simp only [hother u hu, hu, false_or]
    have hunits := henter hafter hbefore
    exact ⟨n + 1, hn.enter hbefore hhelps, hbound (n + 1) (by omega)⟩
  · have hhelps (u : T) : helps' u ↔ helps u := by
      by_cases hu : u = t
      · rw [hu]
        exact iff_of_false hafter hbefore
      · exact hother u hu
    have hunits := hstay (hhelps t)
    exact ⟨n, hn.congr hhelps, hbound n (by omega)⟩

/-- A notification hands over from the thread that makes it to the thread it wakes. -/
theorem hand (h : Covered w helps units) (ht : helps t) (hu : ¬ helps u)
    (hhelps : ∀ v, helps' v ↔ v = u ∨ (v ≠ t ∧ helps v))
    (hw : w'.asleep ≠ [] → w.asleep ≠ []) : Covered w' helps' units := by
  obtain ⟨n, hn, hle⟩ := h
  obtain ⟨m, rfl, hm⟩ := hn.leave ht fun v => Iff.rfl
  have hnew : ¬ (u ≠ t ∧ helps u) := fun h => hu h.2
  refine ⟨m + 1, hm.enter hnew hhelps, fun hne => hle (hw hne)⟩

/-- So a sleeper with a unit to take has a thread that sees to it. -/
theorem exists_helper (h : Covered w helps units) (hw : u ∈ w.asleep) (hunits : 0 < units) :
    ∃ t, helps t := by
  obtain ⟨n, hn, hle⟩ := h
  have hpos : 0 < n := lt_of_lt_of_le hunits (hle (List.ne_nil_of_mem hw))
  by_contra hnone
  have hzero : Census.Count helps 0 := .zero fun t ht => hnone ⟨t, ht⟩
  have heq : (n : ℕ∞) = (0 : ℕ) := hn.symm.trans hzero
  have : n = 0 := by exact_mod_cast heq
  omega

end Covered

end ConditionVariable
