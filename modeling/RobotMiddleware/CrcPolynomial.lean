import RobotMiddleware.FrameCorruption
import RobotMiddleware.RegisterPolynomial

/-! `crc32` as polynomial division, the way peers in other languages define it. The loop works
on a reflected register: a word of the source is a polynomial with its lowest bit first. -/
namespace RobotMiddleware
open Polynomial ShiftRegister

/-- The generator, of degree 32. -/
noncomputable def crcPolynomial : (ZMod 2)[X] :=
  X ^ 32 + X ^ 26 + X ^ 23 + X ^ 22 + X ^ 16 + X ^ 12 + X ^ 11 + X ^ 10 + X ^ 8 + X ^ 7 + X ^ 5 +
    X ^ 4 + X ^ 2 + X + 1

/-- The constant of the loop is the generator without its leading term, reflected. -/
theorem divisor_eq_crcPolynomial : divisor (0xEDB88320 : BitVec 32) = crcPolynomial := by
  have hbits : registerBits (0xEDB88320 : BitVec 32) =
      [false, false, false, false, false, true, false, false,
        true, true, false, false, false, false, false, true,
        false, false, false, true, true, true, false, true,
        true, false, true, true, false, true, true, true] := by
    decide
  rw [divisor, registerPolynomial, hbits, crcPolynomial]
  simp [toPolynomial, coefficient]
  ring

/-- The message with 32 zeros behind it, its first 32 coefficients complemented, divided by
the generator. -/
noncomputable def crcRemainder (data : Bytes) : (ZMod 2)[X] :=
  let coefficients := bitsOf data ++ List.replicate 32 false
  toPolynomial ((coefficients.take 32).map not ++ coefficients.drop 32) %ₘ crcPolynomial

/-- The register before the final complement. -/
theorem registerPolynomial_crc (data : Bytes) :
    registerPolynomial (feed 0xEDB88320 (bitsOf data) (0xFFFFFFFF : BitVec 32)) =
      crcRemainder data := by
  have hones : (0xFFFFFFFF : BitVec 32) = BitVec.allOnes 32 := by decide
  rw [hones, registerPolynomial_feed_allOnes (by decide), divisor_eq_crcPolynomial]
  rfl

/-- `crc32` is the remainder with its 32 coefficients reversed and complemented: bit `i` is the
complement of the coefficient of degree `31 - i`. -/
theorem crc32_eq_remainder (data : Bytes) :
    (crcRemainder data).degree < 32 ∧
    ∀ i : Fin 32, (crc32 data).getLsbD i = !decide ((crcRemainder data).coeff (31 - i) = 1) := by
  have hregister := registerPolynomial_crc data
  constructor
  · rw [← hregister]
    exact degree_registerPolynomial_lt _
  · intro i
    have hindex : 32 - 1 - (31 - i.val) = i := by omega
    have hdegree : 31 - i.val < 32 := by omega
    rw [← hregister, coeff_registerPolynomial, if_pos hdegree, hindex, crc32_eq_feed,
      BitVec.getLsbD_not]
    cases (feed (0xEDB88320 : BitVec 32) (bitsOf data) 0xFFFFFFFF).getLsbD i <;>
      simp [i.isLt, coefficient]

/-- The check value of the standard, for the digits from 1 to 9. -/
example : crc32 [49, 50, 51, 52, 53, 54, 55, 56, 57] = 0xCBF43926 := by decide +kernel

end RobotMiddleware
