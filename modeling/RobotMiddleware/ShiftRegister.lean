import Mathlib.Tactic

/-! Linear feedback shift registers that take one bit at a time at the low end. When the feedback
word has its top bit set a step loses nothing, and a change of the input within as many bits as
the register has always shows in the register. -/

namespace ShiftRegister
variable {w : ℕ}

/-- One shift; `poly` is fed back when a bit falls out. -/
def step (poly x : BitVec w) : BitVec w :=
  (x >>> 1) ^^^ (if x.getLsbD 0 then poly else 0#w)

def word : List Bool → BitVec w
  | [] => 0#w
  | b :: bits => (BitVec.ofBool b).setWidth w ^^^ (word bits <<< 1)

def feed (poly : BitVec w) (bits : List Bool) (x : BitVec w) : BitVec w :=
  bits.foldl (fun x b => step poly (x ^^^ (BitVec.ofBool b).setWidth w)) x

theorem getLsbD_word (bits : List Bool) (i : ℕ) :
    (word bits : BitVec w).getLsbD i = (decide (i < w) && bits.getD i false) := by
  induction bits generalizing i with
  | nil => simp [word]
  | cons b bits ih =>
    rw [word, BitVec.getLsbD_xor, BitVec.getLsbD_setWidth, BitVec.getLsbD_shiftLeft, ih]
    cases i with
    | zero => cases b <;> simp
    | succ i =>
      have hhigh : (BitVec.ofBool b).getLsbD (i + 1) = false := BitVec.getLsbD_of_ge _ _ (by omega)
      simp only [hhigh, Nat.add_sub_cancel, List.getD_cons_succ]
      by_cases hi : i + 1 < w
      · have hlow : i < w := by omega
        simp [hi, hlow]
      · simp [hi]

theorem word_injective {bits bits' : List Bool} (hlength : bits.length = bits'.length)
    (hle : bits.length ≤ w) (h : (word bits : BitVec w) = word bits') : bits = bits' := by
  apply List.ext_getElem hlength
  intro i hi hi'
  have hbit := congrArg (fun v : BitVec w => v.getLsbD i) h
  simp only [getLsbD_word] at hbit
  have hw : i < w := lt_of_lt_of_le hi hle
  simpa [hw, hi, hi'] using hbit

section Step
variable (poly : BitVec w)

theorem step_xor (x y : BitVec w) : step poly (x ^^^ y) = step poly x ^^^ step poly y := by
  simp only [step, BitVec.ushiftRight_xor_distrib, BitVec.getLsbD_xor]
  apply BitVec.eq_of_getLsbD_eq
  intro i _
  cases hx : x.getLsbD 0 <;> cases hy : y.getLsbD 0 <;>
    simp [BitVec.getLsbD_xor] <;>
    cases x.getLsbD (1 + i) <;> cases y.getLsbD (1 + i) <;> simp

/-- Nothing is fed back while zeros fall out. -/
theorem step_word_shiftLeft {bits : List Bool} (h : bits.length < w) :
    step poly (word bits <<< 1) = word bits := by
  have hw : 0 < w := by omega
  have hlow : (word bits <<< 1 : BitVec w).getLsbD 0 = false := by simp
  rw [step, hlow]
  apply BitVec.eq_of_getLsbD_eq
  intro i hi
  have hzero : (if false = true then poly else 0#w) = 0#w := if_neg Bool.false_ne_true
  rw [hzero, BitVec.xor_zero, BitVec.getLsbD_ushiftRight, BitVec.getLsbD_shiftLeft, getLsbD_word,
    getLsbD_word]
  by_cases htop : 1 + i < w
  · simp [htop, hi]
  · have hout : bits.length ≤ i := by omega
    simp [htop, hout]

/-- As many bits as the register has may as well be put in at once. -/
theorem feed_eq_iterate {bits : List Bool} (h : bits.length ≤ w) (x : BitVec w) :
    feed poly bits x = (step poly)^[bits.length] (x ^^^ word bits) := by
  induction bits generalizing x with
  | nil => simp [feed, word]
  | cons b bits ih =>
    have hlength : bits.length < w := by simpa using h
    have hshift : step poly (x ^^^ (BitVec.ofBool b).setWidth w ^^^ (word bits <<< 1)) =
        step poly (x ^^^ (BitVec.ofBool b).setWidth w) ^^^ word bits := by
      rw [step_xor, step_word_shiftLeft poly hlength]
    calc feed poly (b :: bits) x
        = feed poly bits (step poly (x ^^^ (BitVec.ofBool b).setWidth w)) := rfl
      _ = (step poly)^[bits.length]
            (step poly (x ^^^ (BitVec.ofBool b).setWidth w) ^^^ word bits) := ih hlength.le _
      _ = (step poly)^[bits.length + 1] (x ^^^ word (b :: bits)) := by
          rw [← hshift, Function.iterate_succ_apply, word, BitVec.xor_assoc]

theorem feed_append (bits bits' : List Bool) (x : BitVec w) :
    feed poly (bits ++ bits') x = feed poly bits' (feed poly bits x) :=
  List.foldl_append

end Step

section Invertible
variable {poly : BitVec w} (hpoly : poly.msb = true)
include hpoly

/-- A step loses nothing: its top bit says whether the feedback word went in. -/
theorem step_injective : Function.Injective (step poly) := by
  intro x y h
  have hw : 0 < w := by
    by_contra hw
    obtain rfl : w = 0 := by omega
    rw [BitVec.eq_nil poly] at hpoly
    cases hpoly
  have htop (z : BitVec w) : (step poly z).getLsbD (w - 1) = z.getLsbD 0 := by
    have hout : z.getLsbD (1 + (w - 1)) = false := BitVec.getLsbD_of_ge _ _ (by omega)
    have hset : poly.getLsbD (w - 1) = true := by
      rw [BitVec.msb_eq_getLsbD_last] at hpoly
      exact hpoly
    rw [step, BitVec.getLsbD_xor, BitVec.getLsbD_ushiftRight, hout]
    cases z.getLsbD 0 <;> simp [hset]
  have hlow : x.getLsbD 0 = y.getLsbD 0 := by rw [← htop, ← htop, h]
  have hrest : x >>> 1 = y >>> 1 := by
    simp only [step, hlow] at h
    exact (BitVec.xor_left_inj _).mp h
  apply BitVec.eq_of_getLsbD_eq
  intro i hi
  cases i with
  | zero => exact hlow
  | succ i =>
    have hbit := congrArg (fun z : BitVec w => z.getLsbD i) hrest
    simpa only [BitVec.getLsbD_ushiftRight, Nat.add_comm 1 i] using hbit

theorem feed_injective (bits : List Bool) : Function.Injective (feed poly bits) := by
  induction bits with
  | nil => exact Function.injective_id
  | cons b bits ih =>
    intro x y h
    exact (BitVec.xor_left_inj _).mp (step_injective hpoly (ih h))

/-- A change within as many bits as the register has always shows. -/
theorem feed_ne_of_burst {before changed changed' after : List Bool}
    (hlength : changed.length = changed'.length) (hle : changed.length ≤ w)
    (hne : changed ≠ changed') (x : BitVec w) :
    feed poly (before ++ (changed ++ after)) x ≠ feed poly (before ++ (changed' ++ after)) x := by
  intro h
  simp only [feed_append] at h
  have hmiddle := feed_injective hpoly after h
  have hle' : changed'.length ≤ w := hlength ▸ hle
  rw [feed_eq_iterate poly hle, feed_eq_iterate poly hle', hlength] at hmiddle
  have hword := (step_injective hpoly).iterate _ hmiddle
  exact hne (word_injective hlength hle ((BitVec.xor_right_inj _).mp hword))

end Invertible

end ShiftRegister
