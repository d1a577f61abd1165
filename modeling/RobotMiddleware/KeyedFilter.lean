import Mathlib.Tactic

/-! A filter that keeps the value of the last frame it let through, one for each key. The
first frame of a key passes; a later one passes when the kept value admits it. -/

structure KeyedFilter (K V F : Type) where
  key : F → K
  value : F → V
  admits : V → F → Bool

namespace KeyedFilter
variable {K V F : Type} [DecidableEq K] (M : KeyedFilter K V F)

omit [DecidableEq K] in
def verdict (cells : K → Option V) (f : F) : Bool :=
  match cells (M.key f) with
  | none => true
  | some v => M.admits v f

def step (cells : K → Option V) (f : F) : K → Option V :=
  if M.verdict cells f then Function.update cells (M.key f) (some (M.value f)) else cells

def after (cells : K → Option V) : List F → K → Option V
  | [] => cells
  | f :: frames => after (M.step cells f) frames

def run (cells : K → Option V) : List F → List (F × Bool)
  | [] => []
  | f :: frames => (f, M.verdict cells f) :: run (M.step cells f) frames

def passed {F : Type} (verdicts : List (F × Bool)) : List F :=
  (verdicts.filter (·.2)).map Prod.fst

section Lemmas
variable {M} {cells cells' : K → Option V}

theorem passed_append (vs ws : List (F × Bool)) : passed (vs ++ ws) = passed vs ++ passed ws := by
  rw [passed, List.filter_append, List.map_append, passed, passed]

theorem mem_passed {f : F} {vs : List (F × Bool)} : f ∈ passed vs ↔ (f, true) ∈ vs := by
  simp [passed]

theorem run_append (frames rest : List F) :
    M.run cells (frames ++ rest) = M.run cells frames ++ M.run (M.after cells frames) rest := by
  induction frames generalizing cells with
  | nil => rfl
  | cons f frames ih => rw [List.cons_append, run, run, after, ih, List.cons_append]

theorem after_append (frames rest : List F) :
    M.after cells (frames ++ rest) = M.after (M.after cells frames) rest := by
  induction frames generalizing cells with
  | nil => rfl
  | cons f frames ih => rw [List.cons_append, after, after, ih]

omit [DecidableEq K] in
theorem verdict_congr {f : F} (h : cells (M.key f) = cells' (M.key f)) :
    M.verdict cells f = M.verdict cells' f := by
  rw [verdict, verdict, h]

theorem step_of_ne {f : F} {k : K} (h : k ≠ M.key f) : M.step cells f k = cells k := by
  rw [step]
  split
  · exact Function.update_of_ne h _ _
  · rfl

theorem step_congr {f : F} (h : cells (M.key f) = cells' (M.key f)) :
    M.step cells f (M.key f) = M.step cells' f (M.key f) := by
  rw [step, step, verdict_congr h]
  split
  · rw [Function.update_self, Function.update_self]
  · exact h

/-- A key sees its own frames only. -/
theorem run_filter {k : K} (h : cells k = cells' k) (frames : List F) :
    (M.run cells frames).filter (fun v => M.key v.1 = k) =
      M.run cells' (frames.filter fun f => M.key f = k) := by
  induction frames generalizing cells cells' with
  | nil => rfl
  | cons f frames ih =>
    by_cases hk : M.key f = k
    · subst hk
      rw [run, List.filter_cons_of_pos (by simp), List.filter_cons_of_pos (by simp), run,
        verdict_congr h, ih (step_congr h)]
    · have hstep : M.step cells f k = cells' k := (step_of_ne (Ne.symm hk)).trans h
      rw [run, List.filter_cons_of_neg (by simpa using hk),
        List.filter_cons_of_neg (by simpa using hk), ih hstep]

theorem step_ne_none {f : F} {k : K} :
    M.step cells f k ≠ none ↔ cells k ≠ none ∨ k = M.key f := by
  by_cases hk : k = M.key f
  · subst hk
    have hverdict (hnone : cells (M.key f) = none) : M.verdict cells f = true := by
      rw [verdict, hnone]
    simp only [or_true, iff_true]
    rw [step]
    split
    case isTrue => simp
    case isFalse hrefused => exact fun hnone => hrefused (hverdict hnone)
  · rw [step_of_ne hk]
    simp [hk]

/-- A value is kept for the keys that have occurred. -/
theorem after_ne_none {frames : List F} {k : K} :
    M.after cells frames k ≠ none ↔ cells k ≠ none ∨ k ∈ frames.map M.key := by
  induction frames generalizing cells with
  | nil => simp [after]
  | cons f frames ih => rw [after, ih, step_ne_none, List.map_cons, List.mem_cons, or_assoc]

/-- A kept value was there before, or is that of a frame. -/
theorem exists_of_after_eq_some {frames : List F} {k : K} {v : V}
    (h : M.after cells frames k = some v) :
    cells k = some v ∨ ∃ f ∈ frames, M.key f = k ∧ M.value f = v := by
  induction frames generalizing cells with
  | nil => exact .inl h
  | cons f frames ih =>
    rcases ih h with hstep | ⟨g, hg, hkey⟩
    · by_cases hk : k = M.key f
      · subst hk
        rw [step] at hstep
        split at hstep
        · rw [Function.update_self] at hstep
          exact .inr ⟨f, List.mem_cons_self, rfl, Option.some.inj hstep⟩
        · exact .inl hstep
      · rw [step_of_ne hk] at hstep
        exact .inl hstep
    · exact .inr ⟨g, List.mem_cons_of_mem f hg, hkey⟩

/-- All frames of one key pass if the kept value admits the first and each admits the next. -/
theorem forall_run_iff {frames : List F} {k : K} (hkeys : ∀ f ∈ frames, M.key f = k) :
    (∀ v ∈ M.run cells frames, v.2 = true) ↔
      (∀ last ∈ cells k, ∀ f ∈ frames.head?, M.admits last f = true) ∧
        frames.IsChain fun f g => M.admits (M.value f) g = true := by
  induction frames generalizing cells with
  | nil =>
    apply iff_of_true
    · nofun
    · exact ⟨nofun, .nil⟩
  | cons f frames ih =>
    have hkey := hkeys f List.mem_cons_self
    have hrest := @ih (M.step cells f) fun g hg => hkeys g (List.mem_cons_of_mem f hg)
    have hverdict : M.verdict cells f = true ↔ ∀ last ∈ cells k, M.admits last f = true := by
      rw [verdict, hkey]
      cases cells k with
      | none => exact iff_of_true rfl nofun
      | some last => simp
    rw [run, List.forall_mem_cons, hverdict, List.head?_cons, List.isChain_cons]
    simp only [Option.mem_some_iff, forall_eq']
    apply and_congr_right
    intro hfirst
    have hcell : M.step cells f k = some (M.value f) := by
      rw [step, if_pos (hverdict.mpr hfirst), hkey, Function.update_self]
    rw [hrest, hcell]
    simp only [Option.mem_some_iff, forall_eq']

end Lemmas

/-! The empty filter, run over a whole history. -/

def empty : K → Option V := fun _ => none

section History
variable {M}

theorem run_concat (frames : List F) (f : F) :
    M.run empty (frames ++ [f]) =
      M.run empty frames ++ [(f, M.verdict (M.after empty frames) f)] := by
  rw [run_append, run, run]

theorem after_concat (frames : List F) (f : F) :
    M.after empty (frames ++ [f]) = M.step (M.after empty frames) f := by
  rw [after_append, after, after]

theorem passed_concat (frames : List F) (f : F) :
    passed (M.run empty (frames ++ [f])) = passed (M.run empty frames) ++
      if M.verdict (M.after empty frames) f then [f] else [] := by
  rw [run_concat, passed_append]
  cases h : M.verdict (M.after empty frames) f <;> simp [passed]

def Advances (M : KeyedFilter K V F) (r : V → V → Prop) (frames : List F) : Prop :=
  ∀ before f rest, frames = before ++ f :: rest →
    ∀ v, M.after empty before (M.key f) = some v → M.admits v f = true → r v (M.value f)

theorem Advances.of_concat {r : V → V → Prop} {frames : List F} {f : F}
    (h : M.Advances r (frames ++ [f])) : M.Advances r frames := by
  intro before g rest hsplit
  apply h before g (rest ++ [f])
  rw [hsplit, List.append_assoc, List.cons_append]

theorem Advances.concat {r : V → V → Prop} {frames : List F} {f : F} (h : M.Advances r frames)
    (hf : ∀ v, M.after empty frames (M.key f) = some v → M.admits v f = true →
      r v (M.value f)) : M.Advances r (frames ++ [f]) := by
  intro before g rest hsplit
  rcases List.eq_nil_or_concat' rest with rfl | ⟨rest, last, rfl⟩
  · obtain ⟨rfl, hg⟩ := List.append_inj' hsplit rfl
    cases hg
    exact hf
  · rw [← List.cons_append, ← List.append_assoc] at hsplit
    obtain ⟨hframes, -⟩ := List.append_inj' hsplit rfl
    exact h before g rest hframes

/-- The kept value is that of the last frame let through, or comes after it in `r`. -/
theorem Advances.kept {r : V → V → Prop} (htrans : ∀ a b c, r a b → r b c → r a c)
    {frames : List F} (h : M.Advances r frames) {g : F} (hg : g ∈ passed (M.run empty frames)) :
    ∃ v, M.after empty frames (M.key g) = some v ∧ (v = M.value g ∨ r (M.value g) v) := by
  induction frames using List.reverseRecOn with
  | nil => cases hg
  | append_singleton frames f ih =>
    rw [passed_concat] at hg
    rw [after_concat, step]
    cases hverdict : M.verdict (M.after empty frames) f with
    | false =>
      rw [hverdict] at hg
      simp only [Bool.false_eq_true, ↓reduceIte, List.append_nil] at hg ⊢
      exact ih h.of_concat hg
    | true =>
      rw [hverdict] at hg
      simp only [↓reduceIte, List.mem_append, List.mem_singleton] at hg ⊢
      by_cases hkey : M.key g = M.key f
      · rw [hkey, Function.update_self]
        refine ⟨M.value f, rfl, ?_⟩
        rcases hg with hg | rfl
        · -- `f` has replaced the value that `g` had left or led to
          obtain ⟨v, hv, hle⟩ := ih h.of_concat hg
          rw [hkey] at hv
          have hadmits : M.admits v f = true := by
            rw [verdict, hv] at hverdict
            exact hverdict
          have hstep := h frames f [] rfl v hv hadmits
          rcases hle with rfl | hle
          · exact .inr hstep
          · exact .inr (htrans _ _ _ hle hstep)
        · exact .inl rfl
      · rw [Function.update_of_ne hkey]
        rcases hg with hg | rfl
        · exact ih h.of_concat hg
        · exact absurd rfl hkey

/-- The frames let through under one key are in the order of `r`. -/
theorem Advances.pairwise {r : V → V → Prop} (htrans : ∀ a b c, r a b → r b c → r a c)
    {frames : List F} (h : M.Advances r frames) :
    (passed (M.run empty frames)).Pairwise fun f g =>
      M.key f = M.key g → r (M.value f) (M.value g) := by
  induction frames using List.reverseRecOn with
  | nil => exact .nil
  | append_singleton frames f ih =>
    rw [passed_concat]
    refine List.pairwise_append.mpr ⟨ih h.of_concat, ?_, ?_⟩
    · split <;> simp
    · intro g hg f' hf' hkey
      cases hverdict : M.verdict (M.after empty frames) f with
      | false =>
        rw [hverdict] at hf'
        cases hf'
      | true =>
        rw [hverdict] at hf'
        obtain rfl := List.mem_singleton.mp hf'
        obtain ⟨v, hv, hle⟩ := h.of_concat.kept htrans hg
        rw [hkey] at hv
        have hadmits : M.admits v f' = true := by
          rw [verdict, hv] at hverdict
          exact hverdict
        have hstep := h frames f' [] rfl v hv hadmits
        rcases hle with rfl | hle
        · exact hstep
        · exact htrans _ _ _ hle hstep

end History
end KeyedFilter
