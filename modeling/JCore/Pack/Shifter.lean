import JCore.Core.Datapath
import JCore.Lib.Bits

/-!
# The barrel shifter

The shifter rotates its operand by the magnitude of the count, one conditional
rotation for each bit of it, and a mask then takes either the rotated bits or the
bit shifted in. A shift to the right is a rotation to the left by the magnitude
of which only the low places are kept, so its amount is the width less the
magnitude.

## Main results

* `leftRotate_eq`: the chain of rotations is one rotation by the magnitude
* `bshifter_reference`: the shifter against the reference shifts
-/

namespace JCore

open BitVec

variable {n : ℕ}

/-! ### Rotation -/

/-- The rotations of the places below `m` add up to the count's low `m` bits. -/
theorem foldl_rotate (a : BitVec (2 ^ n)) (b : BitVec n) (m : ℕ) :
    ((List.range m).reverse.foldl
      (fun (yr, offset) i => (if b.getLsbD i then yr.rotateLeft offset else yr, offset / 2))
      (a, 2 ^ m / 2)).1 = a.rotateLeft (b.toNat % 2 ^ m) := by
  induction m generalizing a with
  | zero => simp [Nat.mod_one, rotateLeft_zero]
  | succ m ih =>
    have hoffset : 2 ^ (m + 1) / 2 = 2 ^ m := by omega
    have hbit : b.toNat % 2 ^ (m + 1) = (if b.getLsbD m then 2 ^ m else 0) + b.toNat % 2 ^ m := by
      rw [Nat.mod_pow_succ, ← Nat.toNat_testBit, BitVec.testBit_toNat, Nat.add_comm]
      cases b.getLsbD m <;> simp
    rw [List.range_succ, List.reverse_append, List.reverse_singleton, List.singleton_append,
      List.foldl_cons, hoffset, ih, hbit]
    split_ifs
    · rw [rotateLeft_rotateLeft]
    · rw [Nat.zero_add]

/-- The shifter's rotation is the rotation by the magnitude. -/
theorem leftRotate_eq (a : BitVec (2 ^ n)) (b : BitVec n) :
    leftRotate a b = a.rotateLeft b.toNat := by
  rw [leftRotate, foldl_rotate, Nat.mod_eq_of_lt b.isLt]

/-! ### The mask -/

@[simp] theorem getLsbD_bitsOf (f : ℕ → Bool) (m i : ℕ) :
    (bitsOf f m).getLsbD i = (decide (i < m) && f i) := by
  induction m with
  | zero => simp [bitsOf]
  | succ m ih =>
    rw [bitsOf, getLsbD_cons, ih]
    by_cases h : i = m
    · simp [h]
    · have : i < m + 1 ↔ i < m := by omega
      simp [h, this]

/-- The places that keep a rotated bit: all of them in a rotation, else those at
or above the magnitude in a shift to the left and those below it in one to the
right. -/
theorem getLsbD_mask (b : BitVec n) (rotate left : Bool) {i : ℕ} (hi : i < 2 ^ n) :
    (calpFcn (calfFcn b) rotate left).getLsbD i =
      ((decide (i < b.toNat) ^^ left) || rotate) := by
  rw [calpFcn, calfFcn, getLsbD_bitsOf, getLsbD_bitsOf]
  simp [hi]

/-- The magnitude of a count. -/
def magnitude (b : BitVec (n + 1)) : ℕ := (b.extractLsb' 0 n).toNat

theorem magnitude_lt (b : BitVec (n + 1)) : magnitude b < 2 ^ n := (b.extractLsb' 0 n).isLt

/-- Bit `i` of the shifter's result. -/
theorem getLsbD_bshifter (a : BitVec (2 ^ n)) (b : BitVec (n + 1)) (c : Bool) (ops : Shiftfunc)
    {right : Bool} (sign : b.getLsbD n = right) {i : ℕ} (hi : i < 2 ^ n) :
    (bshifter a b c ops).getLsbD i =
      if ((decide (i < magnitude b) ^^ !right) || ops == .rotate) = true then
        (a.rotateLeft (magnitude b)).getLsbD i
      else if i = 2 ^ n - 1 then
        if right = true ∧ ops = .rotc then c
        else if ops = .arith ∧ right = true then a.getLsbD (2 ^ n - 1) else false
      else if i = 0 then
        if right = false ∧ ops = .rotc then c
        else if ops = .arith ∧ right = true then a.getLsbD (2 ^ n - 1) else false
      else if ops = .arith ∧ right = true then a.getLsbD (2 ^ n - 1) else false := by
  have hmask := getLsbD_mask (b.extractLsb' 0 n) (ops == .rotate) (!right) hi
  rw [bshifter, calyFcn, getLsbD_bitsOf, leftRotate_eq]
  simp only [sign, hi, decide_true, Bool.true_and, hmask, Bool.not_eq_false', Bool.not_eq_true']
  rfl

section Reference

variable (a : BitVec (2 ^ n)) (b : BitVec (n + 1)) (c : Bool) {ops : Shiftfunc}

/-- A count without a sign shifts to the left, in both kinds of shift. -/
theorem bshifter_left (sign : b.getLsbD n = false) (shift : ops = .logic ∨ ops = .arith) :
    bshifter a b c ops = a <<< magnitude b := by
  have hmag := magnitude_lt b
  have hrot : (ops == .rotate) = false := by rcases shift with rfl | rfl <;> rfl
  have hrotc : ops ≠ .rotc := by rcases shift with rfl | rfl <;> decide
  apply eq_of_getLsbD_eq
  intro i hi
  rw [getLsbD_bshifter a b c ops sign hi, getLsbD_shiftLeft, getLsbD_rotateLeft_of_lt a hmag hi]
  by_cases h : i < magnitude b <;> simp [h, hi, hrot, hrotc]

/-- A count with a sign shifts to the right by the width less the magnitude. -/
theorem bshifter_right_logic (sign : b.getLsbD n = true) :
    bshifter a b c .logic = a >>> (2 ^ n - magnitude b) := by
  have hmag := magnitude_lt b
  apply eq_of_getLsbD_eq
  intro i hi
  rw [getLsbD_bshifter a b c .logic sign hi, getLsbD_ushiftRight, getLsbD_rotateLeft_of_lt a hmag hi]
  by_cases h : i < magnitude b
  · have hindex : i + 2 ^ n - magnitude b = 2 ^ n - magnitude b + i := by omega
    simp [h, hindex]
  · simp [h, getLsbD_of_ge a (2 ^ n - magnitude b + i) (by omega)]

theorem bshifter_right_arith (sign : b.getLsbD n = true) :
    bshifter a b c .arith = a.sshiftRight (2 ^ n - magnitude b) := by
  have hmag := magnitude_lt b
  apply eq_of_getLsbD_eq
  intro i hi
  rw [getLsbD_bshifter a b c .arith sign hi, getLsbD_sshiftRight, getLsbD_rotateLeft_of_lt a hmag hi]
  by_cases h : i < magnitude b
  · have hindex : i + 2 ^ n - magnitude b = 2 ^ n - magnitude b + i := by omega
    have hin : 2 ^ n - magnitude b + i < 2 ^ n := by omega
    simp [h, hindex, hin, hi]
  · have hout : ¬2 ^ n - magnitude b + i < 2 ^ n := by omega
    simp [h, hout, Nat.not_le.mpr hi, msb_eq_getLsbD_last]

/-- A rotation goes by the magnitude to the left for either sign. -/
theorem bshifter_rotate : bshifter a b c .rotate = a.rotateLeft (magnitude b) := by
  apply eq_of_getLsbD_eq
  intro i hi
  rw [getLsbD_bshifter a b c .rotate rfl hi]
  simp

/-- The bit that a shift by one place loses, for either direction. -/
def shiftOut : Bool := if b.getLsbD n then a.getLsbD 0 else a.getLsbD (2 ^ n - 1)

/-- `ROTC` by one place to the left rotates the operand with the carry above it. -/
theorem bshifter_rotc_left (hn : 1 ≤ n) (sign : b.getLsbD n = false) (one : magnitude b = 1) :
    cons (shiftOut a b) (bshifter a b c .rotc) = (cons c a).rotateLeft 1 := by
  have hw : 1 < 2 ^ n := Nat.one_lt_two_pow (by omega)
  apply eq_of_getLsbD_eq
  intro i hi
  rw [getLsbD_rotateLeft_of_lt _ (by omega) hi, getLsbD_cons, getLsbD_cons, shiftOut, sign]
  by_cases htop : i = 2 ^ n
  · simp [htop]
    omega
  · rw [getLsbD_bshifter a b c .rotc sign (by omega), one, getLsbD_rotateLeft_of_lt a hw (by omega)]
    rcases Nat.eq_zero_or_pos i with rfl | hpos
    · have hne : (0 : ℕ) ≠ 2 ^ n - 1 := by omega
      simp [hne]
      omega
    · have hlow : ¬i < 1 := by omega
      have hne : i - 1 ≠ 2 ^ n := by omega
      simp [hlow, htop, hne]

/-- `ROTC` by one place to the right. -/
theorem bshifter_rotc_right (hn : 1 ≤ n) (sign : b.getLsbD n = true)
    (one : magnitude b = 2 ^ n - 1) :
    cons (shiftOut a b) (bshifter a b c .rotc) = (cons c a).rotateRight 1 := by
  have hw : 1 < 2 ^ n := Nat.one_lt_two_pow (by omega)
  apply eq_of_getLsbD_eq
  intro i hi
  have hright := rotateRight_sub (cons c a) (r := 2 ^ n) (by omega)
  rw [Nat.add_sub_cancel_left] at hright
  rw [hright, getLsbD_rotateLeft_of_lt _ (by omega) hi, getLsbD_cons, getLsbD_cons, shiftOut, sign]
  by_cases htop : i = 2 ^ n
  · simp [htop]
    omega
  · rw [getLsbD_bshifter a b c .rotc sign (by omega), one,
      getLsbD_rotateLeft_of_lt a (by omega) (by omega)]
    by_cases hlast : i = 2 ^ n - 1
    · have hindex : i + (2 ^ n + 1) - 2 ^ n = 2 ^ n := by omega
      rw [if_pos (by omega : i < 2 ^ n), hindex]
      simp [hlast]
      omega
    · have hlow : i < 2 ^ n - 1 := by omega
      have hindex : i + 2 ^ n - (2 ^ n - 1) = i + 1 := by omega
      have hindex' : i + (2 ^ n + 1) - 2 ^ n = i + 1 := by omega
      have hne : i + 1 ≠ 2 ^ n := by omega
      rw [if_pos (by omega : i < 2 ^ n), hindex']
      simp [hlow, htop, hindex, hne]

/-- The shifter against the reference shifts. A count with its sign set goes to the
right by the width less the magnitude, so with magnitude zero nothing of the
operand is left; a rotation through the carry goes by one place. -/
theorem bshifter_reference (hn : 1 ≤ n) :
    (b.getLsbD n = false →
      bshifter a b c .logic = a <<< magnitude b ∧ bshifter a b c .arith = a <<< magnitude b ∧
        bshifter a b c .rotate = a.rotateLeft (magnitude b)) ∧
    (b.getLsbD n = true →
      bshifter a b c .logic = a >>> (2 ^ n - magnitude b) ∧
        bshifter a b c .arith = a.sshiftRight (2 ^ n - magnitude b) ∧
        bshifter a b c .rotate = a.rotateRight (2 ^ n - magnitude b)) ∧
    (b.getLsbD n = false → magnitude b = 1 →
      cons (shiftOut a b) (bshifter a b c .rotc) = (cons c a).rotateLeft 1) ∧
    (b.getLsbD n = true → 2 ^ n - magnitude b = 1 →
      cons (shiftOut a b) (bshifter a b c .rotc) = (cons c a).rotateRight 1) := by
  have hmag := magnitude_lt b
  refine ⟨fun sign => ⟨?_, ?_, ?_⟩, fun sign => ⟨?_, ?_, ?_⟩, fun sign one => ?_, fun sign one => ?_⟩
  · exact bshifter_left a b c sign (.inl rfl)
  · exact bshifter_left a b c sign (.inr rfl)
  · exact bshifter_rotate a b c
  · exact bshifter_right_logic a b c sign
  · exact bshifter_right_arith a b c sign
  · rw [bshifter_rotate, rotateRight_sub a hmag]
  · exact bshifter_rotc_left a b c hn sign one
  · exact bshifter_rotc_right a b c hn sign (by omega)

end Reference

/-- The word whose lowest bit is the carry's next value, rotated to the right. -/
theorem bshifter_reference_word :
    cons (shiftOut (n := 5) 0x80000001#32 0x3f#6) (bshifter 0x80000001#32 0x3f#6 false .rotc) =
      (cons false 0x80000001#32).rotateRight 1 :=
  (bshifter_reference (n := 5) 0x80000001#32 0x3f#6 false (by decide)).2.2.2 (by decide) (by decide)

/-- The datapath feeds the shifter with the sign and the low five bits of the Y
bus, and `sfto` is the bit that a shift by one place loses. -/
theorem Datapath.sfto_eq (this : DatapathReg) (regs : RegisterFile 5 21 32) (ctrl : StageCtrl)
    (i : DatapathI) :
    sfto this regs ctrl i =
      shiftOut (n := 5) (xbus this regs ctrl)
        (BitVec.ofBool ((ybus this regs ctrl i).getLsbD 31) ++
          (ybus this regs ctrl i).extractLsb' 0 5) := by
  rw [sfto, shiftOut, BitVec.getLsbD_append]
  simp

end JCore
