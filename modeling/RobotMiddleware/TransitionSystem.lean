import Mathlib.Data.Nat.Init

/-! Guarded transition systems. A step is an executable partial function: it is
undefined when the action is not enabled, so the guard that a proof uses is the
guard that an execution checks. -/

universe u v

structure TransitionSystem (S : Type u) (A : Type v) where
  init : S → Prop
  step : S → A → Option S

namespace TransitionSystem
variable {S : Type u} {A : Type v} {M : TransitionSystem S A}

/-- States reached by actions that all meet `ok` in the state they are taken in. -/
inductive ReachableVia (M : TransitionSystem S A) (ok : S → A → Prop) : S → Prop
  | init {s : S} : M.init s → ReachableVia M ok s
  | step {s s' : S} {a : A} :
      ReachableVia M ok s → ok s a → M.step s a = some s' → ReachableVia M ok s'

def Reachable (M : TransitionSystem S A) : S → Prop :=
  M.ReachableVia fun _ _ => True

def run (M : TransitionSystem S A) : S → List A → Option S
  | s, [] => some s
  | s, a :: as => (M.step s a).bind fun s' => run M s' as

def runVia (M : TransitionSystem S A) (ok : S → A → Prop) [∀ s a, Decidable (ok s a)] :
    S → List A → Option S
  | s, [] => some s
  | s, a :: as => if ok s a then (M.step s a).bind fun s' => runVia M ok s' as else none

theorem Reachable.init {s : S} (h : M.init s) : M.Reachable s :=
  ReachableVia.init h

theorem Reachable.step {s s' : S} {a : A} (h : M.Reachable s) (hs : M.step s a = some s') :
    M.Reachable s' :=
  ReachableVia.step h trivial hs

/-- A property that holds initially and that every permitted step keeps holds of
every state reached by permitted steps. The step may use what it steps from. -/
theorem ReachableVia.invariant {ok : S → A → Prop} {P : S → Prop}
    (h0 : ∀ s, M.init s → P s)
    (hstep : ∀ s a s', M.ReachableVia ok s → P s → ok s a → M.step s a = some s' → P s')
    {s : S} (h : M.ReachableVia ok s) : P s := by
  induction h with
  | init hs => exact h0 _ hs
  | step hr hok hs ih => exact hstep _ _ _ hr ih hok hs

theorem Reachable.invariant {P : S → Prop} (h0 : ∀ s, M.init s → P s)
    (hstep : ∀ s a s', M.Reachable s → P s → M.step s a = some s' → P s')
    {s : S} (h : M.Reachable s) : P s :=
  ReachableVia.invariant h0 (fun s a s' hr hP _ hs => hstep s a s' hr hP hs) h

theorem ReachableVia.reachable {ok : S → A → Prop} {s : S} (h : M.ReachableVia ok s) :
    M.Reachable s := by
  induction h with
  | init hs => exact Reachable.init hs
  | step _ _ hs ih => exact ih.step hs

theorem Reachable.run {s s' : S} {as : List A} (h : M.Reachable s)
    (hr : M.run s as = some s') : M.Reachable s' := by
  induction as generalizing s with
  | nil =>
    simp only [TransitionSystem.run, Option.some.injEq] at hr
    exact hr ▸ h
  | cons a as ih =>
    obtain ⟨t, ht, hrest⟩ := Option.bind_eq_some_iff.mp hr
    exact ih (h.step ht) hrest

theorem ReachableVia.runVia {ok : S → A → Prop} [∀ s a, Decidable (ok s a)] {s s' : S}
    {as : List A} (h : M.ReachableVia ok s) (hr : M.runVia ok s as = some s') :
    M.ReachableVia ok s' := by
  induction as generalizing s with
  | nil =>
    simp only [TransitionSystem.runVia, Option.some.injEq] at hr
    exact hr ▸ h
  | cons a as ih =>
    obtain ⟨hok, hr⟩ := Option.ite_none_right_eq_some.mp hr
    obtain ⟨t, ht, hrest⟩ := Option.bind_eq_some_iff.mp hr
    exact ih (h.step hok ht) hrest

/-- An execution that ends where `p` holds, evaluated rather than written out. -/
theorem exists_reachable_of_run (M : TransitionSystem S A) (s : S) (actions : List A)
    (p : S → Bool) (h : M.init s) (hp : (M.run s actions).map p = some true) :
    ∃ s', M.Reachable s' ∧ p s' = true := by
  obtain ⟨s', hrun, hp'⟩ := Option.map_eq_some_iff.mp hp
  exact ⟨s', (Reachable.init h).run hrun, hp'⟩

/-- An execution in two parts. -/
theorem exists_run_of_run (M : TransitionSystem S A) (s : S) (first second : List A)
    (p : S → S → Bool) (h : M.init s)
    (hp : ((M.run s first).bind fun t => (M.run t second).map (p t)) = some true) :
    ∃ t u, M.Reachable t ∧ M.run t second = some u ∧ p t u = true := by
  obtain ⟨t, hfirst, hsecond⟩ := Option.bind_eq_some_iff.mp hp
  obtain ⟨u, hu, hpu⟩ := Option.map_eq_some_iff.mp hsecond
  exact ⟨t, u, (Reachable.init h).run hfirst, hu, hpu⟩

theorem exists_reachableVia_of_run (M : TransitionSystem S A) (ok : S → A → Prop)
    [∀ s a, Decidable (ok s a)] (s : S) (actions : List A) (p : S → Bool) (h : M.init s)
    (hp : (M.runVia ok s actions).map p = some true) :
    ∃ s', M.ReachableVia ok s' ∧ p s' = true := by
  obtain ⟨s', hrun, hp'⟩ := Option.map_eq_some_iff.mp hp
  exact ⟨s', (ReachableVia.init h).runVia hrun, hp'⟩

theorem run_append (M : TransitionSystem S A) (s : S) (first second : List A) :
    M.run s (first ++ second) = (M.run s first).bind fun t => M.run t second := by
  induction first generalizing s with
  | nil => rfl
  | cons a first ih =>
    simp only [List.cons_append, run, Option.bind_assoc]
    exact congrArg _ (funext ih)

def Leads (M : TransitionSystem S A) (s s' : S) : Prop :=
  ∃ actions, M.run s actions = some s'

theorem Leads.refl (s : S) : M.Leads s s := ⟨[], rfl⟩

theorem Leads.trans {s t u : S} (h : M.Leads s t) (h' : M.Leads t u) : M.Leads s u := by
  obtain ⟨first, hfirst⟩ := h
  obtain ⟨second, hsecond⟩ := h'
  exact ⟨first ++ second, by rw [run_append, hfirst, Option.bind_some, hsecond]⟩

theorem Leads.head {s t u : S} {a : A} (h : M.step s a = some t) (h' : M.Leads t u) :
    M.Leads s u := by
  obtain ⟨actions, hactions⟩ := h'
  exact ⟨a :: actions, by rw [run, h, Option.bind_some, hactions]⟩

/-- What every step keeps still holds at the end of a run. -/
theorem Leads.invariant {P : S → Prop}
    (hstep : ∀ s a s', P s → M.step s a = some s' → P s') {s s' : S} (h : M.Leads s s')
    (hs : P s) : P s' := by
  obtain ⟨actions, hactions⟩ := h
  induction actions generalizing s with
  | nil =>
    simp only [run, Option.some.injEq] at hactions
    exact hactions ▸ hs
  | cons a actions ih =>
    obtain ⟨t, ht, hrest⟩ := Option.bind_eq_some_iff.mp hactions
    exact ih (hstep s a t hs ht) hrest

theorem Reachable.leads {s s' : S} (h : M.Reachable s) (hleads : M.Leads s s') :
    M.Reachable s' := by
  obtain ⟨actions, hactions⟩ := hleads
  exact h.run hactions

/-- Where some run towards the goal is always possible that lowers a rank and keeps `P`, some run
gets there. -/
theorem exists_leads_of_leads {P goal : S → Prop} (rank : S → Nat)
    (hprogress : ∀ s, P s → ¬ goal s → ∃ s', M.Leads s s' ∧ P s' ∧ rank s' < rank s)
    {s : S} (h : P s) : ∃ s', M.Leads s s' ∧ P s' ∧ goal s' := by
  induction hrank : rank s using Nat.strong_induction_on generalizing s with
  | _ n ih =>
    by_cases hgoal : goal s
    · exact ⟨s, .refl s, h, hgoal⟩
    · obtain ⟨t, hfirst, ht, hlt⟩ := hprogress s h hgoal
      obtain ⟨s', hleads, hs', hreached⟩ := ih (rank t) (hrank ▸ hlt) ht rfl
      exact ⟨s', hfirst.trans hleads, hs', hreached⟩

/-- The same with one step at a time. -/
theorem exists_leads_of_progress {P goal : S → Prop} (rank : S → Nat)
    (hprogress : ∀ s, P s → ¬ goal s → ∃ a s', M.step s a = some s' ∧ P s' ∧ rank s' < rank s)
    {s : S} (h : P s) : ∃ s', M.Leads s s' ∧ P s' ∧ goal s' := by
  refine exists_leads_of_leads rank (fun s hs hgoal => ?_) h
  obtain ⟨a, s', hstep, hs', hlt⟩ := hprogress s hs hgoal
  exact ⟨s', .head hstep (.refl s'), hs', hlt⟩

end TransitionSystem
