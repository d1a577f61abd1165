import Mathlib.Tactic
import Mathlib.Algebra.Polynomial.Div
import Mathlib.Algebra.Polynomial.Monic
import Mathlib.Data.ZMod.Basic
import RobotMiddleware.ShiftRegister

/-! Shift registers as polynomial division over the field of two elements. A list of bits is a
polynomial, highest degree first, and so is a register, lowest bit first. The register that
takes bits in holds, at each moment, the remainder of what it has taken in. -/

namespace ShiftRegister
open Polynomial

def coefficient (b : Bool) : ZMod 2 :=
  if b then 1 else 0

theorem coefficient_xor (a b : Bool) :
    coefficient (a ^^ b) = coefficient a + coefficient b := by
  cases a <;> cases b <;> decide

/-- The bits as coefficients, highest degree first. -/
noncomputable def toPolynomial : List Bool → (ZMod 2)[X]
  | [] => 0
  | b :: bits => C (coefficient b) * X ^ bits.length + toPolynomial bits

theorem toPolynomial_cons (b : Bool) (bits : List Bool) :
    toPolynomial (b :: bits) = C (coefficient b) * X ^ bits.length + toPolynomial bits := rfl

theorem toPolynomial_append (as bs : List Bool) :
    toPolynomial (as ++ bs) = toPolynomial as * X ^ bs.length + toPolynomial bs := by
  induction as with
  | nil => rw [List.nil_append, toPolynomial, zero_mul, zero_add]
  | cons a as ih =>
    rw [List.cons_append, toPolynomial_cons, toPolynomial_cons, ih, List.length_append, pow_add]
    ring

theorem toPolynomial_replicate_false (n : ℕ) : toPolynomial (List.replicate n false) = 0 := by
  induction n with
  | zero => rfl
  | succ n ih =>
    have hzero : coefficient false = 0 := rfl
    rw [List.replicate_succ, toPolynomial_cons, ih, hzero, C_0, zero_mul, zero_add]

/-- Bitwise exclusive or is addition. -/
theorem toPolynomial_zipWith_xor {as bs : List Bool} (h : as.length = bs.length) :
    toPolynomial (List.zipWith (· ^^ ·) as bs) = toPolynomial as + toPolynomial bs := by
  induction as generalizing bs with
  | nil =>
    rw [List.length_eq_zero_iff.mp h.symm]
    exact (zero_add 0).symm
  | cons a as ih =>
    obtain _ | ⟨b, bs⟩ := bs
    · cases h
    · have hlength : as.length = bs.length := Nat.succ.inj h
      have hzip : (List.zipWith (· ^^ ·) as bs).length = bs.length := by
        rw [List.length_zipWith, hlength, Nat.min_self]
      rw [List.zipWith_cons_cons, toPolynomial_cons, toPolynomial_cons, toPolynomial_cons, hzip,
        hlength, ih hlength, coefficient_xor, C_add]
      ring

theorem coeff_toPolynomial (bits : List Bool) (j : ℕ) :
    (toPolynomial bits).coeff j =
      if j < bits.length then coefficient (bits.getD (bits.length - 1 - j) false) else 0 := by
  induction bits with
  | nil => rfl
  | cons b bits ih =>
    rw [toPolynomial_cons, coeff_add, coeff_C_mul, coeff_X_pow, ih, List.length_cons]
    rcases lt_trichotomy j bits.length with hlt | rfl | hgt
    · have hindex : bits.length + 1 - 1 - j = (bits.length - 1 - j) + 1 := by omega
      rw [if_neg hlt.ne, if_pos hlt, if_pos (by omega), hindex, List.getD_cons_succ, mul_zero,
        zero_add]
    · have hindex : bits.length + 1 - 1 - bits.length = 0 := by omega
      rw [if_pos rfl, if_neg (lt_irrefl _), if_pos (Nat.lt_succ_self _), hindex,
        List.getD_cons_zero, mul_one, add_zero]
    · rw [if_neg hgt.ne', if_neg (by omega), if_neg (by omega), mul_zero, add_zero]

theorem degree_toPolynomial_lt (bits : List Bool) : (toPolynomial bits).degree < bits.length := by
  rw [degree_lt_iff_coeff_zero]
  intro j hj
  rw [coeff_toPolynomial, if_neg (not_lt.mpr hj)]

/-! Registers. -/

section Register
variable {w : ℕ}

def registerBits (x : BitVec w) : List Bool :=
  (List.range w).map x.getLsbD

theorem length_registerBits (x : BitVec w) : (registerBits x).length = w := by
  rw [registerBits, List.length_map, List.length_range]

/-- The lowest bit is the highest coefficient. -/
noncomputable def registerPolynomial (x : BitVec w) : (ZMod 2)[X] :=
  toPolynomial (registerBits x)

theorem coeff_registerPolynomial (x : BitVec w) (j : ℕ) :
    (registerPolynomial x).coeff j =
      if j < w then coefficient (x.getLsbD (w - 1 - j)) else 0 := by
  rw [registerPolynomial, coeff_toPolynomial, length_registerBits]
  by_cases hj : j < w
  · have hindex : w - 1 - j < w := by omega
    rw [if_pos hj, if_pos hj]
    congr 1
    simp [registerBits, hindex]
  · rw [if_neg hj, if_neg hj]

theorem degree_registerPolynomial_lt (x : BitVec w) : (registerPolynomial x).degree < w := by
  have hdegree := degree_toPolynomial_lt (registerBits x)
  rwa [length_registerBits] at hdegree

theorem registerPolynomial_xor (x y : BitVec w) :
    registerPolynomial (x ^^^ y) = registerPolynomial x + registerPolynomial y := by
  ext j
  rw [coeff_add, coeff_registerPolynomial, coeff_registerPolynomial, coeff_registerPolynomial]
  by_cases hj : j < w
  · rw [if_pos hj, if_pos hj, if_pos hj, BitVec.getLsbD_xor, coefficient_xor]
  · rw [if_neg hj, if_neg hj, if_neg hj, add_zero]

/-- A bit at the low end is the highest coefficient. -/
theorem registerPolynomial_ofBool (b : Bool) :
    registerPolynomial ((BitVec.ofBool b).setWidth (w + 1)) = C (coefficient b) * X ^ w := by
  ext j
  rw [coeff_registerPolynomial, coeff_C_mul, coeff_X_pow, BitVec.getLsbD_setWidth]
  by_cases hj : j = w
  · subst hj
    cases b <;> simp
  · rw [if_neg hj, mul_zero]
    by_cases hlt : j < w + 1
    · have hhigh : (BitVec.ofBool b).getLsbD (w + 1 - 1 - j) = false :=
        BitVec.getLsbD_of_ge _ _ (by omega)
      rw [if_pos hlt, hhigh, Bool.and_false]
      rfl
    · rw [if_neg hlt]

/-- What a step divides by: the feedback word with the bit that falls out. -/
noncomputable def divisor (poly : BitVec w) : (ZMod 2)[X] :=
  X ^ w + registerPolynomial poly

theorem divisor_monic (poly : BitVec w) : (divisor poly).Monic :=
  monic_X_pow_add (degree_registerPolynomial_lt poly)

theorem degree_divisor (poly : BitVec w) : (divisor poly).degree = w := by
  have hlt : (registerPolynomial poly).degree < ((X : (ZMod 2)[X]) ^ w).degree := by
    rw [degree_X_pow]
    exact degree_registerPolynomial_lt poly
  rw [divisor, degree_add_eq_left_of_degree_lt hlt, degree_X_pow]

/-- A step multiplies by `X` and takes off the divisor if the product is too long. -/
theorem registerPolynomial_step (poly x : BitVec w) :
    registerPolynomial (step poly x) =
      X * registerPolynomial x + C (coefficient (x.getLsbD 0)) * divisor poly := by
  ext j
  rw [step, registerPolynomial_xor, coeff_add, coeff_add, coeff_C_mul, divisor, coeff_add,
    coeff_X_pow, coeff_registerPolynomial, BitVec.getLsbD_ushiftRight]
  have hfeedback : (registerPolynomial (if x.getLsbD 0 = true then poly else 0#w)).coeff j =
      coefficient (x.getLsbD 0) * (registerPolynomial poly).coeff j := by
    cases x.getLsbD 0 with
    | true => exact (one_mul _).symm
    | false =>
      have hzero : (registerPolynomial (0#w)).coeff j = 0 := by
        rw [coeff_registerPolynomial]
        simp [coefficient]
      exact hzero.trans (zero_mul _).symm
  have hshift : (if j < w then coefficient (x.getLsbD (1 + (w - 1 - j))) else 0) =
      (X * registerPolynomial x).coeff j +
        coefficient (x.getLsbD 0) * if j = w then 1 else 0 := by
    cases j with
    | zero =>
      have hout : x.getLsbD (1 + (w - 1 - 0)) = false := BitVec.getLsbD_of_ge _ _ (by omega)
      rw [coeff_X_mul_zero, hout]
      by_cases hw : 0 = w
      · have hempty : x.getLsbD 0 = false := BitVec.getLsbD_of_ge _ _ hw.ge
        simp [hempty, coefficient]
      · simp [hw, coefficient]
    | succ j =>
      rw [coeff_X_mul, coeff_registerPolynomial]
      rcases lt_trichotomy (j + 1) w with hlt | rfl | hgt
      · have hindex : 1 + (w - 1 - (j + 1)) = w - 1 - j := by omega
        rw [if_pos hlt, if_pos (by omega), if_neg hlt.ne, hindex, mul_zero, add_zero]
      · -- the bit that falls out is the coefficient that is taken off
        have hindex : j + 1 - 1 - j = 0 := by omega
        rw [if_neg (lt_irrefl _), if_pos (Nat.lt_succ_self _), if_pos rfl, hindex, mul_one,
          CharTwo.add_self_eq_zero]
      · rw [if_neg (by omega), if_neg (by omega), if_neg hgt.ne', mul_zero, add_zero]
  rw [hfeedback, hshift]
  ring

/-- What a register has taken in: its contents shifted past the new bits, and those. -/
theorem divisor_dvd_feed (hw : 0 < w) (poly : BitVec w) (bits : List Bool) (x : BitVec w) :
    divisor poly ∣ registerPolynomial (feed poly bits x) -
      (registerPolynomial x * X ^ bits.length + toPolynomial bits * X ^ w) := by
  induction bits generalizing x with
  | nil =>
    have hfeed : feed poly [] x = x := rfl
    rw [toPolynomial, List.length_nil, pow_zero, mul_one, zero_mul, add_zero, hfeed, sub_self]
    exact dvd_zero _
  | cons b bits ih =>
    obtain ⟨w, rfl⟩ : ∃ v, w = v + 1 := ⟨w - 1, by omega⟩
    let y := x ^^^ (BitVec.ofBool b).setWidth (w + 1)
    have hy : registerPolynomial y = registerPolynomial x + C (coefficient b) * X ^ w := by
      rw [registerPolynomial_xor, registerPolynomial_ofBool]
    have hstep := registerPolynomial_step poly y
    have hrest : divisor poly ∣ C (coefficient (y.getLsbD 0)) * divisor poly * X ^ bits.length :=
      Dvd.dvd.mul_right (dvd_mul_left _ _) _
    have hsum := dvd_add (ih (step poly y)) hrest
    have hfeed : feed poly (b :: bits) x = feed poly bits (step poly y) := rfl
    convert hsum using 1
    rw [hfeed, hstep, hy, toPolynomial_cons, List.length_cons]
    ring

/-- The register holds the remainder. -/
theorem registerPolynomial_feed (hw : 0 < w) (poly : BitVec w) (bits : List Bool)
    (x : BitVec w) :
    registerPolynomial (feed poly bits x) =
      (registerPolynomial x * X ^ bits.length + toPolynomial bits * X ^ w) %ₘ divisor poly := by
  have hmonic := divisor_monic poly
  have hdegree : (registerPolynomial (feed poly bits x)).degree < (divisor poly).degree := by
    rw [degree_divisor]
    exact degree_registerPolynomial_lt _
  rw [← modByMonic_eq_of_dvd_sub hmonic (divisor_dvd_feed hw poly bits x)]
  exact ((modByMonic_eq_self_iff hmonic).mpr hdegree).symm

/-- Starting with all bits set complements the first bits of what is taken in. -/
theorem registerPolynomial_feed_allOnes (hw : 0 < w) (poly : BitVec w) (bits : List Bool) :
    registerPolynomial (feed poly bits (BitVec.allOnes w)) =
      toPolynomial (((bits ++ List.replicate w false).take w).map not ++
        (bits ++ List.replicate w false).drop w) %ₘ divisor poly := by
  have hones : registerBits (BitVec.allOnes w) = List.replicate w true := by
    apply List.ext_getElem
    · rw [length_registerBits, List.length_replicate]
    · intro i hi _
      rw [length_registerBits] at hi
      simp [registerBits, hi]
  let padded := bits ++ List.replicate w false
  have hpadded : padded.length = w + bits.length := by
    rw [List.length_append, List.length_replicate, Nat.add_comm]
  have hmask : (padded.take w).map not ++ padded.drop w =
      List.zipWith (· ^^ ·) padded (List.replicate w true ++ List.replicate bits.length false) := by
    apply List.ext_getElem
    · simp [hpadded]
    · intro i hi _
      by_cases hiw : i < w
      · simp [hiw, hpadded]
      · have hindex : w + (i - w) = i := by omega
        simp [List.getElem_append, hiw, hpadded, hindex]
  rw [registerPolynomial_feed hw, hmask, toPolynomial_zipWith_xor (by simp [hpadded]),
    toPolynomial_append, toPolynomial_append, toPolynomial_replicate_false,
    toPolynomial_replicate_false, registerPolynomial, hones, List.length_replicate,
    List.length_replicate, add_zero, add_zero, add_comm]

end Register
end ShiftRegister
