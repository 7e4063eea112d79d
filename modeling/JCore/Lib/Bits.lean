import Mathlib.Data.BitVec
import Mathlib.Tactic.Ring

/-!
# Bit vectors as numbers

A vector is the weighted sum of its parts, a signed vector is its low bits
minus the weight of its sign, and a subtraction is an addition of the
complement with a carry. These are the facts an adder or a multiplier made of
concatenations and extractions is read with.
-/

namespace BitVec

variable {m n w : ℕ}

theorem toNat_append_add (x : BitVec m) (y : BitVec n) :
    (x ++ y).toNat = x.toNat * 2 ^ n + y.toNat := by
  rw [toNat_append, ← Nat.shiftLeft_add_eq_or_of_lt y.isLt, Nat.shiftLeft_eq]

theorem toNat_zero_append (x : BitVec n) : (0#m ++ x).toNat = x.toNat := by
  rw [toNat_append_add, toNat_ofNat, Nat.zero_mod, Nat.zero_mul, Nat.zero_add]

/-- A vector tells the parts that it is put together from. -/
theorem parts_of_append_eq {x x' : BitVec m} {y y' : BitVec n} (h : x ++ y = x' ++ y') :
    x = x' ∧ y = y' := by
  have high := congrArg (extractLsb' n m) h
  have low := congrArg (extractLsb' 0 n) h
  rw [extractLsb'_append_eq_left, extractLsb'_append_eq_left] at high
  rw [extractLsb'_append_eq_right, extractLsb'_append_eq_right] at low
  exact ⟨high, low⟩

/-- The low `n + 1` bits are the bit of weight `2 ^ n` above the low `n` bits. -/
theorem extractLsb'_zero_succ (x : BitVec w) (n : ℕ) :
    x.extractLsb' 0 (n + 1) =
      (ofBool (x.getLsbD n) ++ x.extractLsb' 0 n).cast (Nat.add_comm 1 n) := by
  apply eq_of_getLsbD_eq
  intro i hi
  simp only [getLsbD_extractLsb', getLsbD_cast, getLsbD_append, hi, decide_true, Bool.true_and,
    Nat.zero_add]
  by_cases hlt : i < n
  · simp [hlt]
  · obtain rfl : i = n := by omega
    simp

private theorem toInt_cast_eq (h : m = n) (x : BitVec m) : (x.cast h).toInt = x.toInt := by
  subst h
  rfl

/-- A signed field is its low bits minus the weight of its sign bit. -/
theorem toInt_extractLsb'_succ (x : BitVec w) (n : ℕ) :
    (x.extractLsb' 0 (n + 1)).toInt =
      (x.extractLsb' 0 n).toNat - 2 ^ n * ((x.getLsbD n).toNat : ℤ) := by
  rw [extractLsb'_zero_succ, toInt_cast_eq, toInt_append]
  cases x.getLsbD n
  · simp
  · simp
    ring

/-- A signed vector is its low bits minus the weight of its sign bit. -/
theorem toInt_eq_low_sub_sign (x : BitVec (n + 1)) :
    x.toInt = (x.extractLsb' 0 n).toNat - 2 ^ n * ((x.getLsbD n).toNat : ℤ) := by
  have full : x.extractLsb' 0 (n + 1) = x := by
    apply eq_of_getLsbD_eq
    intro i hi
    simp [hi]
  rw [← toInt_extractLsb'_succ, full]

/-- Adding the complement and one subtracts; both operands lie below the sign. -/
theorem toInt_add_not_add_one (x : BitVec (1 + n)) (y : BitVec n) (hx : x.toNat < 2 ^ n) :
    (x + (1#1 ++ ~~~y) + 1#(1 + n)).toInt = (x.toNat : ℤ) - y.toNat := by
  have hy := y.isLt
  have hpow : 2 ^ (1 + n) = 2 * 2 ^ n := by rw [pow_add, pow_one]
  have hone : 1 < 2 ^ (1 + n) := Nat.one_lt_two_pow (by omega)
  have sum : (x + (1#1 ++ ~~~y) + 1#(1 + n)).toNat =
      (x.toNat + 2 ^ (1 + n) - y.toNat) % 2 ^ (1 + n) := by
    rw [toNat_add, toNat_add, toNat_append_add, toNat_not, toNat_ofNat, toNat_ofNat,
      Nat.mod_eq_of_lt hone, Nat.mod_add_mod, hpow]
    congr 1
    omega
  rw [toInt_eq_toNat_cond, sum, hpow]
  rcases Nat.lt_or_ge x.toNat y.toNat with hlt | hge
  · rw [Nat.mod_eq_of_lt (by omega)]
    split_ifs <;> omega
  · rw [show x.toNat + 2 * 2 ^ n - y.toNat = x.toNat - y.toNat + 2 * 2 ^ n by omega,
      Nat.add_mod_right, Nat.mod_eq_of_lt (by omega)]
    split_ifs <;> omega

/-- Copying the sign bit in front keeps the value. -/
theorem toInt_sign_append (x : BitVec n) :
    ((if x.getLsbD (n - 1) then BitVec.allOnes m else 0#m) ++ x).toInt = x.toInt := by
  have hmsb : x.getLsbD (n - 1) = x.msb := (msb_eq_getLsbD_last x).symm
  rw [toInt_append, hmsb, toInt_eq_msb_cond]
  rcases Nat.eq_zero_or_pos m with rfl | hm
  · simp
  · cases x.msb
    · simp [hm.ne']
    · simp [hm.ne', toInt_allOnes, hm]
      ring

theorem toNat_and_bool (a b : Bool) : (a && b).toNat = a.toNat * b.toNat := by
  cases a <;> cases b <;> rfl

/-! ### Rotations -/

/-- Bit `i` of a rotation comes from `r` places below, around the end. -/
theorem getLsbD_rotateLeft_of_lt (x : BitVec w) {r i : ℕ} (hr : r < w) (hi : i < w) :
    (x.rotateLeft r).getLsbD i = x.getLsbD (if i < r then i + w - r else i - r) := by
  rw [getLsbD_rotateLeft, Nat.mod_eq_of_lt hr]
  by_cases h : i < r
  · simp only [h, decide_true, cond_true, if_true]
    congr 1
    omega
  · simp [h, hi]

theorem rotateLeft_rotateLeft (x : BitVec w) (r s : ℕ) :
    (x.rotateLeft r).rotateLeft s = x.rotateLeft (r + s) := by
  apply eq_of_getLsbD_eq
  intro i hi
  have hw : 0 < w := by omega
  rw [← rotateLeft_mod_eq_rotateLeft (r := s), ← rotateLeft_mod_eq_rotateLeft (x := x) (r := r),
    ← rotateLeft_mod_eq_rotateLeft (r := r + s), Nat.add_mod]
  have hr : r % w < w := Nat.mod_lt r hw
  have hs : s % w < w := Nat.mod_lt s hw
  generalize r % w = r at hr ⊢
  generalize s % w = s at hs ⊢
  have hsum : (r + s) % w = if r + s < w then r + s else r + s - w := by
    split_ifs with h
    · exact Nat.mod_eq_of_lt h
    · rw [Nat.mod_eq_sub_mod (by omega), Nat.mod_eq_of_lt (by omega)]
  have hlt : (if r + s < w then r + s else r + s - w) < w := by split_ifs <;> omega
  rw [hsum, getLsbD_rotateLeft_of_lt _ hs hi, getLsbD_rotateLeft_of_lt _ hr (by split_ifs <;> omega),
    getLsbD_rotateLeft_of_lt _ hlt hi]
  congr 1
  split_ifs <;> omega

theorem rotateLeft_zero (x : BitVec w) : x.rotateLeft 0 = x := by
  apply eq_of_getLsbD_eq
  intro i hi
  rw [getLsbD_rotateLeft_of_lt _ (by omega) hi]
  simp

/-- A rotation to the right is one to the left by the rest of the width. -/
theorem rotateRight_sub (x : BitVec w) {r : ℕ} (hr : r < w) :
    x.rotateRight (w - r) = x.rotateLeft r := by
  apply eq_of_getLsbD_eq
  intro i hi
  rw [getLsbD_rotateLeft_of_lt _ hr hi, getLsbD_rotateRight]
  rcases Nat.eq_zero_or_pos r with rfl | hpos
  · simp [hi]
  · rw [Nat.mod_eq_of_lt (by omega), show w - (w - r) = r by omega]
    by_cases h : i < r
    · simp only [h, decide_true, cond_true, if_true]
      congr 1
      omega
    · simp [h, hi]

end BitVec
