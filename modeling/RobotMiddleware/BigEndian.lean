import Mathlib.Tactic

/-! Big-endian words. `bytes n v` are the `n` low bytes of `v`, most significant first,
and `word w` reads them back by the shift-and-or loop. -/
namespace BigEndian

/-- Byte `k` of `v`, counted from the least significant one. -/
def byte {w : ℕ} (v : BitVec w) (k : ℕ) : BitVec 8 :=
  (v >>> (8 * k)).setWidth 8

def bytes {w : ℕ} : ℕ → BitVec w → List (BitVec 8)
  | 0, _ => []
  | n + 1, v => byte v n :: bytes n v

/-- One turn of the read loop. -/
def push {w : ℕ} (acc : BitVec w) (b : BitVec 8) : BitVec w :=
  (acc <<< 8) ||| b.setWidth w

def word (w : ℕ) (bs : List (BitVec 8)) : BitVec w :=
  bs.foldl push 0

def value : List (BitVec 8) → ℕ
  | [] => 0
  | b :: bs => b.toNat * 256 ^ bs.length + value bs

theorem length_bytes {w : ℕ} (n : ℕ) (v : BitVec w) : (bytes n v).length = n := by
  induction n with
  | zero => rfl
  | succ n ih => rw [bytes, List.length_cons, ih]

theorem value_lt (bs : List (BitVec 8)) : value bs < 256 ^ bs.length := by
  induction bs with
  | nil => exact Nat.one_pos
  | cons b bs ih =>
    have hb : b.toNat + 1 ≤ 256 := b.isLt
    calc b.toNat * 256 ^ bs.length + value bs
        < b.toNat * 256 ^ bs.length + 256 ^ bs.length := Nat.add_lt_add_left ih _
      _ = (b.toNat + 1) * 256 ^ bs.length := by ring
      _ ≤ 256 * 256 ^ bs.length := Nat.mul_le_mul_right _ hb
      _ = 256 ^ (b :: bs).length := by rw [List.length_cons, pow_succ']

theorem push_ofNat {w : ℕ} (n : ℕ) (b : BitVec 8) :
    push (BitVec.ofNat w n) b = BitVec.ofNat w (n * 256 + b.toNat) := by
  have hb : b.toNat < 2 ^ 8 := b.isLt
  apply BitVec.eq_of_toNat_eq
  simp only [push, BitVec.toNat_or, BitVec.toNat_shiftLeft, BitVec.toNat_ofNat, BitVec.toNat_setWidth]
  have hshift : (n % 2 ^ w) <<< 8 % 2 ^ w = n <<< 8 % 2 ^ w := by
    rw [Nat.shiftLeft_eq, Nat.shiftLeft_eq, Nat.mod_mul_mod]
  rw [hshift, ← Nat.or_mod_two_pow, ← Nat.shiftLeft_add_eq_or_of_lt hb, Nat.shiftLeft_eq]

theorem word_eq_ofNat (w : ℕ) (bs : List (BitVec 8)) : word w bs = BitVec.ofNat w (value bs) := by
  -- the loop from an accumulator `n` shifts it over all remaining bytes
  have hfold (n : ℕ) : bs.foldl push (BitVec.ofNat w n) =
      BitVec.ofNat w (n * 256 ^ bs.length + value bs) := by
    induction bs generalizing n with
    | nil => simp [value]
    | cons b bs ih =>
      rw [List.foldl_cons, push_ofNat, ih, value, List.length_cons]
      congr 1
      ring
  have hzero := hfold 0
  rwa [Nat.zero_mul, Nat.zero_add] at hzero

theorem pow_bytes (n : ℕ) : 256 ^ n = 2 ^ (8 * n) := by
  rw [pow_mul]
  norm_num

theorem toNat_byte {w : ℕ} (v : BitVec w) (k : ℕ) :
    (byte v k).toNat = v.toNat / 256 ^ k % 256 := by
  rw [byte, BitVec.toNat_setWidth, BitVec.toNat_ushiftRight, Nat.shiftRight_eq_div_pow,
    pow_bytes]

theorem value_bytes {w : ℕ} (n : ℕ) (v : BitVec w) : value (bytes n v) = v.toNat % 256 ^ n := by
  induction n with
  | zero => simp [bytes, value, Nat.mod_one]
  | succ n ih =>
    rw [bytes, value, ih, length_bytes, toNat_byte, pow_succ, Nat.mod_mul]
    ring

/-- Writing a word and reading it back. -/
theorem word_bytes {n w : ℕ} (hw : w = 8 * n) (v : BitVec w) : word w (bytes n v) = v := by
  have hpow : 256 ^ n = 2 ^ w := by rw [hw, pow_bytes]
  rw [word_eq_ofNat, value_bytes, hpow, Nat.mod_eq_of_lt v.isLt, BitVec.ofNat_toNat,
    BitVec.setWidth_eq]

/-- A byte string is determined by its length and the number it denotes. -/
theorem eq_of_value_eq {as bs : List (BitVec 8)} (hlength : as.length = bs.length)
    (h : value as = value bs) : as = bs := by
  induction as generalizing bs with
  | nil => exact (List.length_eq_zero_iff.mp hlength.symm).symm
  | cons a as ih =>
    obtain _ | ⟨b, bs⟩ := bs
    · cases hlength
    · have hlength' : as.length = bs.length := Nat.succ.inj hlength
      have hpos : 0 < 256 ^ bs.length := Nat.pow_pos (by norm_num)
      simp only [value, hlength'] at h
      -- the quotient by the weight of the first byte is that byte, the remainder is the rest
      have hdiv := congrArg (· / 256 ^ bs.length) h
      have hmod := congrArg (· % 256 ^ bs.length) h
      have hsmall := hlength' ▸ value_lt as
      simp only [Nat.mul_comm _ (256 ^ bs.length), Nat.mul_add_div hpos, Nat.mul_add_mod,
        Nat.div_eq_of_lt hsmall, Nat.div_eq_of_lt (value_lt bs), Nat.mod_eq_of_lt hsmall,
        Nat.mod_eq_of_lt (value_lt bs), Nat.add_zero] at hdiv hmod
      rw [BitVec.eq_of_toNat_eq hdiv, ih hlength' hmod]

/-- Reading a word and writing it back. -/
theorem bytes_word {n w : ℕ} (hw : w = 8 * n) {bs : List (BitVec 8)} (h : bs.length = n) :
    bytes n (word w bs) = bs := by
  have hpow : 256 ^ n = 2 ^ w := by rw [hw, pow_bytes]
  have hlt : value bs < 2 ^ w := by rw [← hpow, ← h]; exact value_lt bs
  refine eq_of_value_eq ((length_bytes _ _).trans h.symm) ?_
  rw [value_bytes, word_eq_ofNat, BitVec.toNat_ofNat, hpow, Nat.mod_eq_of_lt hlt,
    Nat.mod_eq_of_lt hlt]

end BigEndian
