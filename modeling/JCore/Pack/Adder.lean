import JCore.Pack.Components
import Mathlib.Tactic.Ring

/-!
# The adder and its flags

What the arithmetic unit leaves is exact: its result and the bit above it are a sum with its
carry, or a difference with its borrow. The flags are made of the signs of the operands and
of the result only, and still are the comparisons and the overflow of whole numbers.

## Main results

* `toNat_arithUnit_add`, `toNat_arithUnit_sub`: sum and carry, difference and borrow
* `arith_flags`: the comparisons and the overflow that `arithUpdateSr` leaves in T
-/

namespace JCore

open BitVec

section Adder

variable {n : ℕ} (a b : BitVec n) (ci : Bool)

private theorem setWidth_succ_toNat (x : BitVec n) : (x.setWidth (n + 1)).toNat = x.toNat := by
  rw [toNat_setWidth, Nat.mod_eq_of_lt (x.isLt.trans (Nat.pow_lt_pow_right (by decide) (by omega)))]

private theorem getLsbD_eq_decide (x : BitVec (n + 1)) : x.getLsbD n = decide (2 ^ n ≤ x.toNat) := by
  have h := msb_eq_decide x
  rwa [msb_eq_getLsbD_last, Nat.add_sub_cancel] at h

/-- A number of one bit more is its low bits and its top bit. -/
theorem toNat_low_add_top (x : BitVec (n + 1)) :
    (x.extractLsb' 0 n).toNat + 2 ^ n * (x.getLsbD n).toNat = x.toNat := by
  have hpow : 2 ^ (n + 1) = 2 * 2 ^ n := by rw [Nat.pow_succ, Nat.mul_comm]
  have hx := x.isLt
  rw [extractLsb'_toNat, Nat.shiftRight_zero, getLsbD_eq_decide]
  by_cases h : 2 ^ n ≤ x.toNat
  · have hmod : x.toNat % 2 ^ n = x.toNat - 2 ^ n := by
      rw [Nat.mod_eq_sub_mod h, Nat.mod_eq_of_lt (by omega)]
    simp only [h, decide_true, Bool.toNat_true, hmod]
    omega
  · simp only [h, decide_false, Bool.toNat_false]
    rw [Nat.mod_eq_of_lt (by omega)]
    omega

theorem toNat_carryIn (c : Bool) : (BitVec.ofNat (n + 1) c.toNat).toNat = c.toNat := by
  have hpow : 2 ^ (n + 1) = 2 * 2 ^ n := by rw [Nat.pow_succ, Nat.mul_comm]
  have hpos : 0 < 2 ^ n := Nat.two_pow_pos n
  have hc : c.toNat ≤ 1 := Bool.toNat_le c
  rw [toNat_ofNat, Nat.mod_eq_of_lt (by omega)]

/-- A sum: the bit above it is the carry. -/
theorem toNat_arithUnit_add :
    ((arithUnit a b .add ci).extractLsb' 0 n).toNat +
        2 ^ n * ((arithUnit a b .add ci).getLsbD n).toNat = a.toNat + b.toNat + ci.toNat := by
  have hpow : 2 ^ (n + 1) = 2 * 2 ^ n := by rw [Nat.pow_succ, Nat.mul_comm]
  have ha := a.isLt
  have hb := b.isLt
  have hc : ci.toNat ≤ 1 := Bool.toNat_le ci
  have hadd : (ArithFunc.add == ArithFunc.sub) = false := rfl
  have hsum : arithUnit a b .add ci =
      a.setWidth (n + 1) + b.setWidth (n + 1) + BitVec.ofNat (n + 1) ci.toNat := by
    simp [arithUnit, hadd, xorAll]
  rw [toNat_low_add_top, hsum, toNat_add, toNat_add, setWidth_succ_toNat, setWidth_succ_toNat,
    toNat_carryIn, Nat.mod_add_mod, Nat.mod_eq_of_lt (by omega)]

/-- A difference: the bit above it is the borrow. -/
theorem toNat_arithUnit_sub :
    ((arithUnit a b .sub ci).extractLsb' 0 n).toNat + b.toNat + ci.toNat =
      a.toNat + 2 ^ n * ((arithUnit a b .sub ci).getLsbD n).toNat := by
  have hpow : 2 ^ (n + 1) = 2 * 2 ^ n := by rw [Nat.pow_succ, Nat.mul_comm]
  have ha := a.isLt
  have hb := b.isLt
  have hc : (!ci).toNat = 1 - ci.toNat := by cases ci <;> rfl
  have hci : ci.toNat ≤ 1 := Bool.toNat_le ci
  have hsum : arithUnit a b .sub ci =
      (a.setWidth (n + 1) + (~~~b).setWidth (n + 1) + BitVec.ofNat (n + 1) (!ci).toNat) ^^^
        (1#(n + 1) <<< n) := by
    simp [arithUnit, xorAll]
  have hnat : (a.setWidth (n + 1) + (~~~b).setWidth (n + 1) +
      BitVec.ofNat (n + 1) (!ci).toNat).toNat = a.toNat + 2 ^ n - b.toNat - ci.toNat := by
    rw [toNat_add, toNat_add, setWidth_succ_toNat, setWidth_succ_toNat, toNat_not, toNat_carryIn,
      Nat.mod_add_mod, hc, Nat.mod_eq_of_lt (by omega)]
    omega
  generalize a.setWidth (n + 1) + (~~~b).setWidth (n + 1) + BitVec.ofNat (n + 1) (!ci).toNat =
    sum at hsum hnat
  have hlow : (arithUnit a b .sub ci).extractLsb' 0 n = sum.extractLsb' 0 n := by
    apply eq_of_getLsbD_eq
    intro i hi
    rw [hsum]
    simp [hi]
  have htop : (arithUnit a b .sub ci).getLsbD n = !sum.getLsbD n := by
    rw [hsum, getLsbD_xor]
    simp
  have hsplit := toNat_low_add_top sum
  rw [hlow, htop]
  cases h : sum.getLsbD n <;> simp only [h, Bool.not_true, Bool.not_false, Bool.toNat_true,
    Bool.toNat_false] at hsplit ⊢ <;> omega

end Adder

/-! ### Flags -/

/-- The T bit after an operation of the arithmetic unit without carry in. -/
def arithT {n : ℕ} (func : ArithFunc) (srFunc : ArithSrFunc) (srIn : Sr) (x y : BitVec n) : Bool :=
  let out := arithUnit x y func false
  (arithUpdateSr srIn x.msb y.msb (out.extractLsb' 0 n) (out.getLsbD n) func srFunc).t

section Flags

variable {n : ℕ} (x y : BitVec (n + 1))

theorem isZero_eq_decide (v : BitVec n) : isZero v = decide (v.toNat = 0) := by
  rw [isZero, orReduce, bne, Bool.not_not, beq_eq_decide, decide_eq_decide]
  exact ⟨fun h => by rw [h]; rfl, fun h => eq_of_toNat_eq h⟩

/-- The sign of a number is its top bit. -/
theorem toInt_cases : x.msb = false ∧ x.toNat < 2 ^ n ∧ x.toInt = x.toNat ∨
    x.msb = true ∧ 2 ^ n ≤ x.toNat ∧ x.toInt = x.toNat - 2 * (2 ^ n : ℕ) := by
  have hpow : 2 ^ (n + 1) = 2 * 2 ^ n := by rw [Nat.pow_succ, Nat.mul_comm]
  have hmsb := msb_eq_decide x
  have hint := toInt_eq_msb_cond x
  rw [Nat.add_sub_cancel] at hmsb
  rw [hpow] at hint
  cases h : x.msb <;> rw [h] at hmsb hint
  · exact .inl ⟨rfl, by simpa using hmsb.symm, by simpa using hint⟩
  · exact .inr ⟨rfl, by simpa using hmsb.symm, by simpa using hint⟩

/-- The signs of the operands and of a difference, and whether it is zero, tell the order. -/
theorem arithT_sub (srIn : Sr) :
    (arithT .sub .ugrter srIn x y = true ↔ y.toNat < x.toNat) ∧
      (arithT .sub .ugrterEq srIn x y = true ↔ y.toNat ≤ x.toNat) ∧
      (arithT .sub .sgrter srIn x y = true ↔ y.toInt < x.toInt) ∧
      (arithT .sub .sgrterEq srIn x y = true ↔ y.toInt ≤ x.toInt) ∧
      (arithT .sub .overunderflow srIn x y = true ↔
        ¬ (-2 ^ n ≤ x.toInt - y.toInt ∧ x.toInt - y.toInt < 2 ^ n)) := by
  have hsplit := toNat_arithUnit_sub x y false
  have hpow : 2 ^ (n + 1) = 2 * 2 ^ n := by rw [Nat.pow_succ, Nat.mul_comm]
  have hcast : (2 : ℤ) ^ n = (2 ^ n : ℕ) := by simp
  simp only [arithT, arithUpdateSr, isZero_eq_decide]
  generalize (arithUnit x y .sub false).extractLsb' 0 (n + 1) = v at hsplit
  generalize (arithUnit x y .sub false).getLsbD (n + 1) = borrow at hsplit
  rw [show v.getLsbD (n + 1 - 1) = v.msb from (msb_eq_getLsbD_last v).symm, hcast]
  have hx := x.isLt
  have hy := y.isLt
  have hv := v.isLt
  rw [hpow] at hsplit hx hy hv
  rcases toInt_cases x with ⟨mx, lx, ix⟩ | ⟨mx, lx, ix⟩ <;>
    rcases toInt_cases y with ⟨my, ly, iy⟩ | ⟨my, ly, iy⟩ <;>
    rcases toInt_cases v with ⟨mv, lv, -⟩ | ⟨mv, lv, -⟩ <;>
    rw [mx, my, mv, ix, iy] <;>
    clear mx my mv ix iy <;>
    generalize 2 ^ n = size at * <;>
    generalize v.toNat = v' at * <;>
    cases borrow <;>
    simp only [Bool.toNat_true, Bool.toNat_false] at hsplit <;>
    simp <;> omega

/-- The signs of the operands and of a sum tell its overflow. -/
theorem arithT_add (srIn : Sr) : arithT .add .overunderflow srIn x y = true ↔
    ¬ (-2 ^ n ≤ x.toInt + y.toInt ∧ x.toInt + y.toInt < 2 ^ n) := by
  have hsplit := toNat_arithUnit_add x y false
  have hpow : 2 ^ (n + 1) = 2 * 2 ^ n := by rw [Nat.pow_succ, Nat.mul_comm]
  have hcast : (2 : ℤ) ^ n = (2 ^ n : ℕ) := by simp
  simp only [arithT, arithUpdateSr]
  generalize (arithUnit x y .add false).extractLsb' 0 (n + 1) = v at hsplit
  generalize (arithUnit x y .add false).getLsbD (n + 1) = carry at hsplit
  rw [show v.getLsbD (n + 1 - 1) = v.msb from (msb_eq_getLsbD_last v).symm, hcast]
  have hx := x.isLt
  have hy := y.isLt
  have hv := v.isLt
  rw [hpow] at hsplit hx hy hv
  rcases toInt_cases x with ⟨mx, lx, ix⟩ | ⟨mx, lx, ix⟩ <;>
    rcases toInt_cases y with ⟨my, ly, iy⟩ | ⟨my, ly, iy⟩ <;>
    rcases toInt_cases v with ⟨mv, lv, -⟩ | ⟨mv, lv, -⟩ <;>
    rw [mx, my, mv, ix, iy] <;>
    clear mx my mv ix iy <;>
    generalize 2 ^ n = size at * <;>
    cases carry <;>
    simp only [Bool.toNat_true, Bool.toNat_false] at hsplit <;>
    simp [show (ArithFunc.add == ArithFunc.sub) = false from rfl] <;> omega

/-- The T bit after an operation without carry in: the comparisons of a difference, and the
overflow of a sum or a difference. -/
theorem arith_flags (srIn : Sr) :
    ((arithT .sub .ugrter srIn x y = true ↔ x.toNat > y.toNat) ∧
      (arithT .sub .ugrterEq srIn x y = true ↔ x.toNat ≥ y.toNat) ∧
      (arithT .sub .sgrter srIn x y = true ↔ x.toInt > y.toInt) ∧
      (arithT .sub .sgrterEq srIn x y = true ↔ x.toInt ≥ y.toInt)) ∧
    (arithT .add .overunderflow srIn x y = true ↔
      ¬ (-2 ^ n ≤ x.toInt + y.toInt ∧ x.toInt + y.toInt < 2 ^ n)) ∧
    (arithT .sub .overunderflow srIn x y = true ↔
      ¬ (-2 ^ n ≤ x.toInt - y.toInt ∧ x.toInt - y.toInt < 2 ^ n)) := by
  obtain ⟨ugrter, ugrterEq, sgrter, sgrterEq, underflow⟩ := arithT_sub x y srIn
  exact ⟨⟨ugrter, ugrterEq, sgrter, sgrterEq⟩, arithT_add x y srIn, underflow⟩

end Flags

end JCore
