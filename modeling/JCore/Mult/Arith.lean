import JCore.Lib.Bits
import JCore.Mult.Unit
import Mathlib.Tactic.LinearCombination

/-!
# The arithmetic of the multiplier

What the registers of the unit hold as numbers: the product of the operand
magnitudes in `abh`, the cross terms of the signs in `p23`, and the addend `c`
that the two together make of them.
-/

namespace JCore.Mult

open BitVec

variable (this : MultReg) (x y : BitVec 32)

/-- The low half of a register, as a signed number. -/
def signed16 : ℤ := (x.extractLsb' 0 16).toInt

theorem signed16_eq :
    signed16 x = (x.extractLsb' 0 15).toNat - 2 ^ 15 * ((x.getLsbD 15).toNat : ℤ) :=
  toInt_extractLsb'_succ x 15

/-! ### The three registers -/

theorem toNat_product : (product this).toNat = (ah this).toNat * (bh this).toNat := by
  have ha : (ah this).toNat < 2 ^ 31 := (ah this).isLt
  have hb : (bh this).toNat < 2 ^ 16 := (bh this).isLt
  have hab : (ah this).toNat * (bh this).toNat < 2 ^ 31 * 2 ^ 16 := Nat.mul_lt_mul'' ha hb
  rw [product, toNat_mul, toNat_setWidth, toNat_setWidth,
    Nat.mod_eq_of_lt (ha.trans (by decide)), Nat.mod_eq_of_lt (hb.trans (by decide)),
    Nat.mod_eq_of_lt (hab.trans_le (by decide))]

/-- A 16-bit operation multiplies the 15-bit magnitudes. -/
theorem toNat_product_b16 (size : (code this).size = .b16) :
    (product this).toNat =
      ((aa this).extractLsb' 0 15).toNat * (this.m2.extractLsb' 0 15).toNat := by
  have ha : (ah this).toNat = ((aa this).extractLsb' 0 15).toNat := by
    rw [ah, if_pos size]
    exact toNat_zero_append _
  have hb : (bh this).toNat = (this.m2.extractLsb' 0 15).toNat := by
    rw [bh, if_pos size]
    exact toNat_zero_append _
  rw [toNat_product, ha, hb]

/-- The first cycle of a 32-bit operation takes the low half of operand B. -/
theorem toNat_product_low (size : (code this).size = .b32) (shift : (code this).shift = false) :
    (product this).toNat =
      ((aa this).extractLsb' 0 31).toNat * (this.m2.extractLsb' 0 16).toNat := by
  rw [toNat_product, ah, bh, if_neg (by simp [size]), if_neg (by simp [size]),
    if_neg (by simp [shift])]

/-- The second cycle takes the high half without the sign. -/
theorem toNat_product_high (size : (code this).size = .b32) (shift : (code this).shift = true) :
    (product this).toNat =
      ((aa this).extractLsb' 0 31).toNat * (this.m2.extractLsb' 16 15).toNat := by
  have hb : (bh this).toNat = (this.m2.extractLsb' 16 15).toNat := by
    rw [bh, if_neg (by simp [size]), if_pos shift]
    exact toNat_zero_append _
  rw [toNat_product, ah, if_neg (by simp [size]), hb]

private theorem toNat_add_cross {k : ℕ} (hk : k ≤ 31) (s t : Bool) (a b : BitVec k)
    (u v : BitVec 32) (hu : u.toNat = s.toNat * b.toNat) (hv : v.toNat = t.toNat * a.toNat) :
    (u + v).toNat = s.toNat * b.toNat + t.toNat * a.toNat := by
  have hpow : 2 ^ k ≤ 2 ^ 31 := Nat.pow_le_pow_right (by decide) hk
  have ha := a.isLt
  have hb := b.isLt
  rw [toNat_add, hu, hv, Nat.mod_eq_of_lt]
  cases s <;> cases t <;> simp only [Bool.toNat_false, Bool.toNat_true] <;> omega

/-- A 16-bit operation collects the cross terms of the two signs. -/
theorem toNat_p23_b16 (size : (code this).size = .b16) (shift : (code this).shift = false) :
    (p2 this + p3 this).toNat =
      ((aa this).getLsbD 15).toNat * (this.m2.extractLsb' 0 15).toNat +
        (this.m2.getLsbD 15).toNat * ((aa this).extractLsb' 0 15).toNat := by
  refine toNat_add_cross (by decide) _ _ _ _ _ _ ?_ ?_
  · cases hs : (aa this).getLsbD 15
    · simp only [p2, hs, shift, Bool.false_eq_true, false_and, and_false, if_false,
        Bool.toNat_false, Nat.zero_mul]
      rfl
    · simp only [p2, hs, size, and_true, if_true, Bool.toNat_true, Nat.one_mul]
      exact toNat_zero_append (m := 17) _
  · cases hs : this.m2.getLsbD 15
    · simp only [p3, hs, shift, Bool.false_eq_true, false_and, and_false, if_false,
        Bool.toNat_false, Nat.zero_mul]
      rfl
    · simp only [p3, hs, size, and_true, if_true, Bool.toNat_true, Nat.one_mul]
      exact toNat_zero_append (m := 17) _

theorem p23_low (size : (code this).size = .b32) (shift : (code this).shift = false) :
    p2 this + p3 this = 0 := by
  simp [p2, p3, size, shift]

/-- The second cycle of a 32-bit operation collects the cross terms. -/
theorem toNat_p23_high (size : (code this).size = .b32) (shift : (code this).shift = true) :
    (p2 this + p3 this).toNat =
      ((aa this).getLsbD 31).toNat * (this.m2.extractLsb' 0 31).toNat +
        (this.m2.getLsbD 31).toNat * ((aa this).extractLsb' 0 31).toNat := by
  refine toNat_add_cross (by decide) _ _ _ _ _ _ ?_ ?_
  · cases hs : (aa this).getLsbD 31
    · simp only [p2, hs, size, reduceCtorEq, Bool.false_eq_true, false_and, and_false, if_false,
        Bool.toNat_false, Nat.zero_mul]
      rfl
    · simp only [p2, hs, size, shift, reduceCtorEq, and_false, if_false, and_true, if_true,
        Bool.toNat_true, Nat.one_mul]
      exact toNat_zero_append (m := 1) _
  · cases hs : this.m2.getLsbD 31
    · simp only [p3, hs, size, reduceCtorEq, Bool.false_eq_true, false_and, and_false, if_false,
        Bool.toNat_false, Nat.zero_mul]
      rfl
    · simp only [p3, hs, size, shift, reduceCtorEq, and_false, if_false, and_true, if_true,
        Bool.toNat_true, Nat.one_mul]
      exact toNat_zero_append (m := 1) _

/-! ### The addend -/

/-- The registered product of a 16-bit operation, with the product of the sign
bits in its place. -/
theorem toNat_abh2_b16 (size : (code this).size = .b16) (small : this.abh.toNat < 2 ^ 30) :
    (abh2 this).toNat = ((aa this).getLsbD 15).toNat * (this.m2.getLsbD 15).toNat * 2 ^ 15 +
      this.abh.toNat / 2 ^ 15 := by
  rw [abh2, if_pos size]
  have split := toNat_append_add (0#1 ++ 0#16 ++
    BitVec.ofBool ((aa this).getLsbD 15 && this.m2.getLsbD 15)) (this.abh.extractLsb' 15 15)
  rw [toNat_append_add (0#1 ++ 0#16), toNat_ofBool, toNat_and_bool, extractLsb'_toNat,
    Nat.shiftRight_eq_div_pow, Nat.mod_eq_of_lt (a := this.abh.toNat / 2 ^ 15) (by omega)] at split
  simpa using split

/-- The first half of a 32-bit operation has no signs. -/
theorem toNat_abh2_low (size : (code this).size = .b32) (shift : this.shift = false) :
    (abh2 this).toNat = this.abh.toNat / 2 ^ 15 := by
  have habh : this.abh.toNat < 2 ^ 47 := this.abh.isLt
  rw [abh2, if_neg (by simp [size]), if_pos shift]
  have split := toNat_zero_append (m := 1) (this.abh.extractLsb' 15 32)
  rw [extractLsb'_toNat, Nat.shiftRight_eq_div_pow, Nat.mod_eq_of_lt (by omega)] at split
  exact split

/-- The second half takes the product of the sign bits in. -/
theorem toNat_abh2_high (size : (code this).size = .b32) (shift : this.shift = true)
    (small : this.abh.toNat < 2 ^ 46) :
    (abh2 this).toNat = ((aa this).getLsbD 31).toNat * (this.m2.getLsbD 31).toNat * 2 ^ 31 +
      this.abh.toNat / 2 ^ 15 := by
  rw [abh2, if_neg (by simp [size]), if_neg (by simp [shift])]
  have split := toNat_append_add (0#1 ++
    BitVec.ofBool ((aa this).getLsbD 31 && this.m2.getLsbD 31)) (this.abh.extractLsb' 15 31)
  rw [toNat_zero_append, toNat_ofBool, toNat_and_bool, extractLsb'_toNat,
    Nat.shiftRight_eq_div_pow, Nat.mod_eq_of_lt (a := this.abh.toNat / 2 ^ 15) (by omega)] at split
  exact split

private theorem bool_mul_le (s t : Bool) : s.toNat * t.toNat ≤ 1 := by
  cases s <;> cases t <;> decide

/-- A signed line subtracts the cross terms. -/
theorem toInt_pm (sign : (code this).sign = true) (room : (abh2 this).toNat < 2 ^ 32) :
    (pm this).toInt = 2 ^ 15 * (((abh2 this).toNat : ℤ) - this.p23.toNat) +
      (this.abh.extractLsb' 0 15).toNat := by
  have hsgn : sgn this = BitVec.allOnes 32 := by simp [sgn, sign]
  have hcarry : BitVec.ofNat 33 (code this).sign.toNat = 1#(1 + 32) := by simp [sign]
  have hbit : BitVec.ofBool ((BitVec.allOnes 32).getLsbD 0) = 1#1 := by decide
  rw [pm, toInt_append, hsgn, hcarry, hbit, BitVec.xor_allOnes]
  have hadd := toInt_add_not_add_one (n := 32) (abh2 this) this.p23 room
  simp only [Nat.reduceAdd] at hadd
  simp [hadd]

/-- An unsigned line adds the cross terms. -/
theorem toNat_pm (sign : (code this).sign = false) (room : (abh2 this).toNat < 2 ^ 32) :
    (pm this).toNat = 2 ^ 15 * ((abh2 this).toNat + this.p23.toNat) +
      (this.abh.extractLsb' 0 15).toNat := by
  have hp23 : this.p23.toNat < 2 ^ 32 := this.p23.isLt
  have hsgn : sgn this = 0#32 := by simp [sgn, sign]
  have hcarry : BitVec.ofNat 33 (code this).sign.toNat = 0#33 := by simp [sign]
  have hbit : BitVec.ofBool ((0#32).getLsbD 0) = 0#1 := by decide
  have hsum : (abh2 this + (0#1 ++ this.p23)).toNat = (abh2 this).toNat + this.p23.toNat := by
    rw [toNat_add, toNat_zero_append (m := 1), Nat.mod_eq_of_lt (by omega)]
  rw [pm, toNat_append_add, hsgn, hcarry, hbit, BitVec.add_zero, BitVec.xor_zero, hsum,
    Nat.mul_comm]

/-- The sign with which a line takes in the cross terms. -/
def crossSign (sign : Bool) : ℤ := if sign then -1 else 1

theorem eq_ofInt_of_toNat {w : ℕ} {z : BitVec w} {n : ℤ} (h : (z.toNat : ℤ) = n) :
    z = BitVec.ofInt w n := by
  rw [← h, ofInt_natCast, ofNat_toNat, setWidth_eq]

/-- The addend of a signed 16-bit operation: the magnitudes, the product of the
sign bits, and the cross terms. -/
theorem toInt_c_b16 (size : (code this).size = .b16) (sign : (code this).sign = true)
    (shift : this.shift = false) (small : this.abh.toNat < 2 ^ 30) :
    (c this).toInt = this.abh.toNat +
      2 ^ 30 * (((aa this).getLsbD 15).toNat * (this.m2.getLsbD 15).toNat : ℤ) -
      2 ^ 15 * (this.p23.toNat : ℤ) := by
  have hab := toNat_abh2_b16 this size small
  have hbit := bool_mul_le ((aa this).getLsbD 15) (this.m2.getLsbD 15)
  have hpm := toInt_pm this sign (by omega)
  have hc : (c this).toInt = (pm this).toInt := by
    rw [c, if_pos shift, ← toInt_sign_append (m := 16) (pm this)]
    by_cases hs : (pm this).getLsbD 47 = true
    · rw [if_pos ⟨hs, size⟩, if_pos hs]
      rfl
    · rw [if_neg fun h => hs h.1, if_neg hs]
  rw [hc, hpm, hab, extractLsb'_toNat, Nat.shiftRight_zero]
  push_cast
  omega

/-- The addend of a 16-bit operation, signed or unsigned. -/
theorem c_b16_eq (size : (code this).size = .b16) (shift : this.shift = false)
    (small : this.abh.toNat < 2 ^ 30) (cross : this.p23.toNat < 2 ^ 16) :
    c this = BitVec.ofInt 64 (this.abh.toNat +
      2 ^ 30 * (((aa this).getLsbD 15).toNat * (this.m2.getLsbD 15).toNat : ℤ) +
      crossSign (code this).sign * (2 ^ 15 * (this.p23.toNat : ℤ))) := by
  rcases sign : (code this).sign
  · have hab := toNat_abh2_b16 this size small
    have hbit := bool_mul_le ((aa this).getLsbD 15) (this.m2.getLsbD 15)
    have hpm := toNat_pm this sign (by omega)
    rw [hab, extractLsb'_toNat, Nat.shiftRight_zero] at hpm
    have hclear : (pm this).getLsbD 47 = false := Nat.testBit_lt_two_pow (by omega)
    have hc : (c this).toNat = (pm this).toNat := by
      rw [c, if_pos shift, if_neg fun h => Bool.false_ne_true (hclear.symm.trans h.1)]
      exact toNat_zero_append (m := 16) _
    apply eq_ofInt_of_toNat
    rw [hc, hpm, crossSign]
    simp only [Bool.false_eq_true, if_false]
    push_cast
    omega
  · rw [← ofInt_toInt (x := c this), toInt_c_b16 this size sign shift small]
    congr 1
    simp only [crossSign, if_true]
    ring

/-- The first addend of a 32-bit operation is the registered product. -/
theorem toNat_c_low (size : (code this).size = .b32) (shift : this.shift = false)
    (cross : this.p23 = 0) : (c this).toNat = this.abh.toNat := by
  have habh : this.abh.toNat < 2 ^ 47 := this.abh.isLt
  have hab := toNat_abh2_low this size shift
  have hpm : (pm this).toNat = this.abh.toNat := by
    rcases sign : (code this).sign
    · rw [toNat_pm this sign (by omega), hab, cross, extractLsb'_toNat, Nat.shiftRight_zero]
      simp
      omega
    · have hnat := toInt_pm this sign (by omega)
      have hlt : (pm this).toNat < 2 ^ 48 := (pm this).isLt
      rw [hab, cross, extractLsb'_toNat, Nat.shiftRight_zero, toInt_eq_toNat_cond] at hnat
      push_cast at hnat
      split at hnat <;> simp at hnat <;> omega
  rw [c, if_pos shift, if_neg (by simp [size]), ← hpm]
  exact toNat_zero_append (m := 16) _

theorem toInt_c_low (size : (code this).size = .b32) (shift : this.shift = false)
    (cross : this.p23 = 0) : (c this).toInt = this.abh.toNat := by
  have habh : this.abh.toNat < 2 ^ 47 := this.abh.isLt
  have hc := toNat_c_low this size shift cross
  rw [toInt_eq_toNat_of_lt (by omega), hc]

/-- The second addend of a signed 32-bit operation, sixteen places up. -/
theorem toInt_c_high (size : (code this).size = .b32) (sign : (code this).sign = true)
    (shift : this.shift = true) (small : this.abh.toNat < 2 ^ 46) :
    (c this).toInt = 2 ^ 16 * (this.abh.toNat +
      2 ^ 46 * (((aa this).getLsbD 31).toNat * (this.m2.getLsbD 31).toNat : ℤ) -
      2 ^ 15 * (this.p23.toNat : ℤ)) := by
  have hab := toNat_abh2_high this size shift small
  have hbit := bool_mul_le ((aa this).getLsbD 31) (this.m2.getLsbD 31)
  have hpm := toInt_pm this sign (by omega)
  have hc : (c this).toInt = 2 ^ 16 * (pm this).toInt := by
    rw [c, if_neg (by simp [shift])]
    exact toInt_append_zero
  rw [hc, hpm, hab, extractLsb'_toNat, Nat.shiftRight_zero]
  push_cast
  omega

/-- The second addend of a 32-bit operation, signed or unsigned. -/
theorem c_high_eq (size : (code this).size = .b32) (shift : this.shift = true)
    (small : this.abh.toNat < 2 ^ 46) :
    c this = BitVec.ofInt 64 (2 ^ 16 * (this.abh.toNat +
      2 ^ 46 * (((aa this).getLsbD 31).toNat * (this.m2.getLsbD 31).toNat : ℤ) +
      crossSign (code this).sign * (2 ^ 15 * (this.p23.toNat : ℤ)))) := by
  rcases sign : (code this).sign
  · have hab := toNat_abh2_high this size shift small
    have hbit := bool_mul_le ((aa this).getLsbD 31) (this.m2.getLsbD 31)
    have hpm := toNat_pm this sign (by omega)
    rw [hab, extractLsb'_toNat, Nat.shiftRight_zero] at hpm
    have hc : (c this).toNat = (pm this).toNat * 2 ^ 16 := by
      rw [c, if_neg (by simp [shift])]
      exact (toNat_append_add (pm this) 0#16).trans (Nat.add_zero _)
    apply eq_ofInt_of_toNat
    rw [hc, hpm, crossSign]
    simp only [Bool.false_eq_true, if_false]
    push_cast
    omega
  · rw [← ofInt_toInt (x := c this), toInt_c_high this size sign shift small]
    congr 1
    simp only [crossSign, if_true]
    ring

end JCore.Mult
