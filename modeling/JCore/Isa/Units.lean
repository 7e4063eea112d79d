import JCore.Core.Datapath
import JCore.Pack.Adder
import JCore.Pack.Shifter
import Mathlib.Tactic.IntervalCases

/-!
# The functional units on words

The units of the data path, on the operands that the instructions give them, in the
arithmetic of 32-bit words.

## Main results

* `arithUnit_add`, `arithUnit_sub`: sums and differences with T
* `arithUpdateSr_sub`: the comparisons
* `bshifter_word`: shifts by a word
* `manip_extract` and the like: the bytes of a word
-/

namespace JCore

open BitVec

/-! ### Sums and differences -/

section Sums

variable (x y : BitVec 32) (c : Bool)

theorem arithUnit_add : (arithUnit x y .add c).extractLsb' 0 32 = x + y + BitVec.ofNat 32 c.toNat ∧
    (arithUnit x y .add c).getLsbD 32 = decide (2 ^ 32 ≤ x.toNat + y.toNat + c.toNat) := by
  have split := toNat_arithUnit_add x y c
  generalize (arithUnit x y .add c).extractLsb' 0 32 = low at split
  generalize (arithUnit x y .add c).getLsbD 32 = carry at split
  have hlow := low.isLt
  have hcarry : BitVec.toNat (BitVec.ofNat 32 c.toNat) = c.toNat := by cases c <;> rfl
  constructor
  · apply eq_of_toNat_eq
    rw [toNat_add, toNat_add, hcarry]
    cases carry <;> simp only [Bool.toNat_false, Bool.toNat_true] at split <;> omega
  · cases carry <;> simp only [Bool.toNat_false, Bool.toNat_true] at split
    · exact (decide_eq_false (by omega)).symm
    · exact (decide_eq_true (by omega)).symm

theorem arithUnit_sub : (arithUnit x y .sub c).extractLsb' 0 32 = x - y - BitVec.ofNat 32 c.toNat ∧
    (arithUnit x y .sub c).getLsbD 32 = decide (x.toNat < y.toNat + c.toNat) := by
  have split := toNat_arithUnit_sub x y c
  generalize (arithUnit x y .sub c).extractLsb' 0 32 = low at split
  generalize (arithUnit x y .sub c).getLsbD 32 = borrow at split
  have hlow := low.isLt
  have hx := x.isLt
  have hy := y.isLt
  have hcarry : BitVec.toNat (BitVec.ofNat 32 c.toNat) = c.toNat := by cases c <;> rfl
  have small : c.toNat ≤ 1 := by cases c <;> decide
  constructor
  · apply eq_of_toNat_eq
    rw [toNat_sub, toNat_sub, hcarry]
    cases borrow <;> simp only [Bool.toNat_false, Bool.toNat_true] at split <;> omega
  · cases borrow <;> simp only [Bool.toNat_false, Bool.toNat_true] at split
    · exact (decide_eq_false (by omega)).symm
    · exact (decide_eq_true (by omega)).symm

theorem arithUnit_add_zero : (arithUnit x y .add false).extractLsb' 0 32 = x + y :=
  (arithUnit_add x y false).1.trans (BitVec.add_zero _)

theorem arithUnit_sub_zero : (arithUnit x y .sub false).extractLsb' 0 32 = x - y :=
  (arithUnit_sub x y false).1.trans (BitVec.sub_zero _)

end Sums

/-! ### Flags -/

section Flags

variable (sr : Sr) (x y : BitVec 32)

/-- The flags but for those of a division are all in T. -/
theorem arithUpdateSr_eq {a b : Bool} {value : BitVec 32} {co : Bool} {func : ArithFunc}
    {flag : ArithSrFunc} (plain : flag ≠ .div0s ∧ flag ≠ .div1) :
    arithUpdateSr sr a b value co func flag =
      { sr with t := (arithUpdateSr sr a b value co func flag).t } := by
  cases flag
  case div0s => exact absurd rfl plain.1
  case div1 => exact absurd rfl plain.2
  all_goals rfl

/-- An operation of the arithmetic unit leaves its flag in T. -/
theorem arithUpdateSr_arithT (func : ArithFunc) (flag : ArithSrFunc)
    (plain : flag ≠ .div0s ∧ flag ≠ .div1) {t : Bool} (flags : arithT func flag sr x y = t) :
    arithUpdateSr sr (x.getLsbD 31) (y.getLsbD 31) ((arithUnit x y func false).extractLsb' 0 32)
      ((arithUnit x y func false).getLsbD 32) func flag = { sr with t := t } := by
  rw [arithUpdateSr_eq sr plain, ← flags, arithT, msb_eq_getLsbD_last, msb_eq_getLsbD_last]

theorem isZero_eq_beq {n : ℕ} (v : BitVec n) : isZero v = (v == 0) := by
  rw [isZero, orReduce, bne, Bool.not_not]
  rfl

theorem arithT_zero : arithT .sub .zero sr x y = (x - y == 0) := by
  rw [arithT, arithUnit_sub_zero]
  exact isZero_eq_beq _

theorem arithT_compare :
    arithT .sub .ugrter sr x y = decide (y.toNat < x.toNat) ∧
      arithT .sub .ugrterEq sr x y = decide (y.toNat ≤ x.toNat) ∧
      arithT .sub .sgrter sr x y = decide (y.toInt < x.toInt) ∧
      arithT .sub .sgrterEq sr x y = decide (y.toInt ≤ x.toInt) := by
  obtain ⟨⟨hi, hs, gt, ge⟩, -, -⟩ := arith_flags (n := 31) x y sr
  refine ⟨?_, ?_, ?_, ?_⟩ <;> rw [Bool.eq_iff_iff, decide_eq_true_iff]
  · exact hi
  · exact hs
  · exact gt
  · exact ge

theorem arithT_overflow :
    arithT .add .overunderflow sr x y =
        !decide (-2 ^ 31 ≤ x.toInt + y.toInt ∧ x.toInt + y.toInt < 2 ^ 31) ∧
      arithT .sub .overunderflow sr x y =
        !decide (-2 ^ 31 ≤ x.toInt - y.toInt ∧ x.toInt - y.toInt < 2 ^ 31) := by
  obtain ⟨-, add, sub⟩ := arith_flags (n := 31) x y sr
  constructor <;> rw [Bool.eq_iff_iff, Bool.not_eq_true', decide_eq_false_iff_not]
  · exact add
  · exact sub

/-- Two words agree in some byte. -/
theorem any_orReduceBytes_xor : ((orReduceBytes (x ^^^ y) 8).any (!·)) =
    (List.range 4).any fun k => byteAt x k == byteAt y k := by
  have byte : ∀ k, (!orReduce ((x ^^^ y).extractLsb' (k * 8) 8)) = (byteAt x k == byteAt y k) := by
    intro k
    have parts : (x ^^^ y).extractLsb' (k * 8) 8 = byteAt x k ^^^ byteAt y k := by
      rw [byteAt, byteAt, Nat.mul_comm]
      apply eq_of_getLsbD_eq
      intro i hi
      simp [hi]
    rw [parts]
    exact isZero_xor _ _
  rw [orReduceBytes, List.any_map]
  exact congrArg (List.range 4).any (funext byte)

end Flags

/-! ### Shifts -/

section Shifts

variable (x y : BitVec 32) (c : Bool)

/-- The shifter's count for a word: its sign and its low five bits. -/
def shiftCount : BitVec 6 := BitVec.ofBool (y.getLsbD 31) ++ y.extractLsb' 0 5

theorem getLsbD_shiftCount : (shiftCount y).getLsbD 5 = y.msb := by
  rw [shiftCount, getLsbD_append, msb_eq_getLsbD_last]
  simp

theorem magnitude_shiftCount : magnitude (n := 5) (shiftCount y) = y.toNat % 32 := by
  have low : (shiftCount y).extractLsb' 0 5 = y.extractLsb' 0 5 := by
    rw [shiftCount]
    exact extractLsb'_append_eq_right
  rw [magnitude, low, extractLsb'_toNat, Nat.shiftRight_zero]

/-- Shifts by a word. -/
theorem bshifter_word :
    bshifter (n := 5) x (shiftCount y) c .logic =
        (if y.msb then x >>> (32 - y.toNat % 32) else x <<< (y.toNat % 32)) ∧
      bshifter (n := 5) x (shiftCount y) c .arith =
        (if y.msb then x.sshiftRight (32 - y.toNat % 32) else x <<< (y.toNat % 32)) ∧
      bshifter (n := 5) x (shiftCount y) c .rotate =
        (if y.msb then x.rotateRight (32 - y.toNat % 32) else x.rotateLeft (y.toNat % 32)) := by
  obtain ⟨left, right, -⟩ := bshifter_reference (n := 5) x (shiftCount y) c (by decide)
  rw [getLsbD_shiftCount, magnitude_shiftCount] at left right
  cases h : y.msb with
  | false => exact left h
  | true => exact right h

/-- The bit that a shift by one place to the left loses. -/
theorem lost_left : (if (1#32).getLsbD 31 then x.getLsbD 0 else x.getLsbD 31) = x.msb := by
  rw [if_neg (by decide), msb_eq_getLsbD_last]

theorem lost_right :
    (if (0xffffffff#32).getLsbD 31 then x.getLsbD 0 else x.getLsbD 31) = x.getLsbD 0 :=
  if_pos (by decide)

theorem bshifter_rotcl : bshifter (n := 5) x (shiftCount 1) c .rotc =
    x.extractLsb' 0 31 ++ BitVec.ofBool c := by
  have left : (shiftCount 1).getLsbD 5 = false := by decide
  apply eq_of_getLsbD_eq
  intro i hi
  rw [getLsbD_bshifter x (shiftCount 1) c .rotc left hi,
    magnitude_shiftCount, getLsbD_rotateLeft_of_lt x (by decide) hi, getLsbD_append]
  interval_cases i <;> simp

theorem bshifter_rotcr : bshifter (n := 5) x (shiftCount 0xffffffff) c .rotc =
    BitVec.ofBool c ++ x.extractLsb' 1 31 := by
  have right : (shiftCount 0xffffffff).getLsbD 5 = true := by decide
  apply eq_of_getLsbD_eq
  intro i hi
  rw [getLsbD_bshifter x (shiftCount 0xffffffff) c .rotc right hi,
    magnitude_shiftCount, getLsbD_rotateLeft_of_lt x (by decide) hi, getLsbD_append]
  interval_cases i <;> simp

end Shifts

/-! ### Bytes -/

section Bytes

variable (x y : BitVec 32)

theorem manip_swapByte : manip x y .swapByte =
    y.extractLsb' 16 16 ++ y.extractLsb' 0 8 ++ y.extractLsb' 8 8 := by
  have bytes : manip x y .swapByte = byteAt y 3 ++ byteAt y 2 ++ byteAt y 0 ++ byteAt y 1 := rfl
  rw [bytes]
  apply eq_of_getLsbD_eq
  intro i hi
  simp only [byteAt, getLsbD_append, getLsbD_extractLsb']
  interval_cases i <;> simp

theorem manip_swapWord : manip x y .swapWord = y.extractLsb' 0 16 ++ y.extractLsb' 16 16 := by
  have bytes : manip x y .swapWord = byteAt y 1 ++ byteAt y 0 ++ byteAt y 3 ++ byteAt y 2 := rfl
  rw [bytes]
  apply eq_of_getLsbD_eq
  intro i hi
  simp only [byteAt, getLsbD_append, getLsbD_extractLsb']
  interval_cases i <;> simp

theorem manip_extract : manip x y .extract = y.extractLsb' 0 16 ++ x.extractLsb' 16 16 := by
  have bytes : manip x y .extract = byteAt y 1 ++ byteAt y 0 ++ byteAt x 3 ++ byteAt x 2 := rfl
  rw [bytes]
  apply eq_of_getLsbD_eq
  intro i hi
  simp only [byteAt, getLsbD_append, getLsbD_extractLsb']
  interval_cases i <;> simp

theorem manip_extendUbyte : manip x y .extendUbyte = (y.extractLsb' 0 8).setWidth 32 := by
  have bytes : manip x y .extendUbyte = 0#8 ++ 0#8 ++ 0#8 ++ byteAt y 0 := rfl
  rw [bytes]
  apply eq_of_getLsbD_eq
  intro i hi
  simp only [byteAt, getLsbD_append, getLsbD_extractLsb', getLsbD_setWidth]
  interval_cases i <;> simp

theorem manip_extendUword : manip x y .extendUword = (y.extractLsb' 0 16).setWidth 32 := by
  have bytes : manip x y .extendUword = 0#8 ++ 0#8 ++ byteAt y 1 ++ byteAt y 0 := rfl
  rw [bytes]
  apply eq_of_getLsbD_eq
  intro i hi
  simp only [byteAt, getLsbD_append, getLsbD_extractLsb', getLsbD_setWidth]
  interval_cases i <;> simp

theorem manip_extendSbyte : manip x y .extendSbyte = (y.extractLsb' 0 8).signExtend 32 := by
  have bytes : ∀ sign : BitVec 8, sign = (if y.getLsbD 7 then BitVec.allOnes 8 else 0) →
      manip x y .extendSbyte = sign ++ sign ++ sign ++ byteAt y 0 := by
    rintro sign rfl
    rfl
  rw [bytes _ rfl]
  apply eq_of_getLsbD_eq
  intro i hi
  cases sign : y.getLsbD 7 <;>
    simp only [byteAt, sign, getLsbD_append, getLsbD_extractLsb', getLsbD_signExtend,
      msb_eq_getLsbD_last] <;>
    interval_cases i <;> simp

theorem manip_extendSword : manip x y .extendSword = (y.extractLsb' 0 16).signExtend 32 := by
  have bytes : ∀ sign : BitVec 8, sign = (if y.getLsbD 15 then BitVec.allOnes 8 else 0) →
      manip x y .extendSword = sign ++ sign ++ byteAt y 1 ++ byteAt y 0 := by
    rintro sign rfl
    rfl
  rw [bytes _ rfl]
  apply eq_of_getLsbD_eq
  intro i hi
  cases sign : y.getLsbD 15 <;>
    simp only [byteAt, sign, getLsbD_append, getLsbD_extractLsb', getLsbD_signExtend,
      msb_eq_getLsbD_last] <;>
    interval_cases i <;> simp

theorem xorAll_true : xorAll x true = ~~~x := xor_allOnes

/-- The lowest bit of SR is T. -/
theorem one_and_srToSlv (sr : Sr) : 1 &&& Datapath.srToSlv sr = if sr.t then 1 else 0 := by
  have bits : ∀ (t s q m : Bool) (mask : BitVec 4),
      1 &&& Datapath.srToSlv ⟨t, s, q, m, mask⟩ = if t then 1 else 0 := by decide
  exact bits sr.t sr.s sr.q sr.m sr.intMask

end Bytes

end JCore
