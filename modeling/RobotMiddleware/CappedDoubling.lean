import Mathlib.Tactic

/-! Repeated attempts with a growing pause between them. The pause doubles up to a cap, and starts
afresh after an attempt that went well: what counts is the number of attempts since the last such
one. -/

universe u

/-- The number of attempts since the last one that `restarts`, itself included; all of them if
there was none. -/
def attemptsSince {α : Type u} (restarts : α → Bool) (attempts : List α) : ℕ :=
  attempts.foldl (fun n attempt => if restarts attempt then 1 else n + 1) 0

section AttemptsSince
variable {α : Type u} {restarts : α → Bool} {attempts later : List α} {attempt : α}

theorem attemptsSince_concat :
    attemptsSince restarts (attempts ++ [attempt]) =
      if restarts attempt then 1 else attemptsSince restarts attempts + 1 := by
  rw [attemptsSince, List.foldl_append]
  rfl

theorem attemptsSince_concat_pos : 0 < attemptsSince restarts (attempts ++ [attempt]) := by
  rw [attemptsSince_concat]
  split
  · exact Nat.one_pos
  · exact Nat.succ_pos _

/-- Attempts that restart nothing only add to the number. -/
theorem attemptsSince_append (h : ∀ a ∈ later, restarts a = false) :
    attemptsSince restarts (attempts ++ later) =
      attemptsSince restarts attempts + later.length := by
  induction later using List.reverseRecOn with
  | nil => rw [List.append_nil, List.length_nil, Nat.add_zero]
  | append_singleton later a ih =>
    have hlast : restarts a = false := h a (List.mem_append_right _ List.mem_cons_self)
    have hearlier := ih fun b hb => h b (List.mem_append_left _ hb)
    rw [← List.append_assoc, attemptsSince_concat, hlast, hearlier, List.length_append,
      List.length_singleton]
    rfl

/-- Since a restart: the restart and what came after it. -/
theorem attemptsSince_restart (hrestart : restarts attempt = true)
    (h : ∀ a ∈ later, restarts a = false) :
    attemptsSince restarts (attempts ++ attempt :: later) = later.length + 1 := by
  rw [List.append_cons, attemptsSince_append h, attemptsSince_concat, if_pos hrestart]
  exact Nat.add_comm _ _

theorem attemptsSince_of_none (h : ∀ a ∈ attempts, restarts a = false) :
    attemptsSince restarts attempts = attempts.length :=
  have happend : attemptsSince restarts ([] ++ attempts) = 0 + attempts.length :=
    attemptsSince_append h
  happend.trans (Nat.zero_add _)

end AttemptsSince

/-- The `n`-th pause, counted from zero. -/
def cappedDoubling (initial maximum : ℤ) (n : ℕ) : ℤ :=
  min maximum (initial * 2 ^ n)

section CappedDoubling
variable {initial maximum : ℤ} {n m : ℕ}

theorem cappedDoubling_zero (h : initial ≤ maximum) : cappedDoubling initial maximum 0 = initial := by
  rw [cappedDoubling, pow_zero, mul_one]
  exact min_eq_right h

theorem cappedDoubling_pos (hinitial : 0 < initial) (h : initial ≤ maximum) :
    0 < cappedDoubling initial maximum n :=
  lt_min (hinitial.trans_le h) (by positivity)

/-- Doubling the capped pause or the pause without a cap is the same. -/
theorem cappedDoubling_succ (hinitial : 0 < initial) (h : initial ≤ maximum) :
    cappedDoubling initial maximum (n + 1) =
      min maximum (cappedDoubling initial maximum n * 2) := by
  have hpause : 0 < initial * 2 ^ n := by positivity
  have hnext : initial * 2 ^ (n + 1) = initial * 2 ^ n * 2 := by ring
  rw [cappedDoubling, cappedDoubling, hnext]
  omega

theorem cappedDoubling_mono (hinitial : 0 < initial) (h : n ≤ m) :
    cappedDoubling initial maximum n ≤ cappedDoubling initial maximum m := by
  have hpow : (2 : ℤ) ^ n ≤ 2 ^ m := pow_le_pow_right₀ one_le_two h
  exact min_le_min_left _ (mul_le_mul_of_nonneg_left hpow hinitial.le)

end CappedDoubling
