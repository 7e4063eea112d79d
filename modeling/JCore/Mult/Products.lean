import JCore.Mult.MacL

/-!
# The five multiplications and the saturating MAC.W

A command comes while the unit rests, with the first operand in `m1` or on its
way there, and from then on the operands are left alone. `DMULS.L`, `DMULU.L`
and `MUL.L` run through three lines of the microcode, the others through two.
A signed and an unsigned line differ in the sign with which the cross terms of
the operands' top bits are taken in, so one computation serves both.

## Main results

* `product_results`: every multiplication ends with the exact product
* `macws_result`: the saturating `MAC.W` clamps the sum and records in `MACH`
  that it did
-/

namespace JCore.Mult

open BitVec

/-! ### Operands as numbers -/

/-- The number an operand stands for in a signed or an unsigned operation. -/
def value32 (sign : Bool) (x : BitVec 32) : ℤ := if sign then x.toInt else x.toNat

/-- The number the low half of an operand stands for. -/
def value16 (sign : Bool) (x : BitVec 32) : ℤ :=
  if sign then signed16 x else (x.extractLsb' 0 16).toNat

theorem toNat_extractLsb'_succ (x : BitVec 32) (n : ℕ) :
    (x.extractLsb' 0 (n + 1)).toNat =
      (x.extractLsb' 0 n).toNat + 2 ^ n * (x.getLsbD n).toNat := by
  rw [extractLsb'_zero_succ, toNat_cast, toNat_append_add, toNat_ofBool]
  ring

theorem value32_eq (sign : Bool) (x : BitVec 32) :
    value32 sign x =
      (x.extractLsb' 0 31).toNat + crossSign sign * (2 ^ 31 * ((x.getLsbD 31).toNat : ℤ)) := by
  cases sign
  · have h := toNat_extractLsb'_succ x 31
    have full : x.extractLsb' 0 32 = x := by simp
    rw [full] at h
    simp only [value32, crossSign, Bool.false_eq_true, if_false, h]
    push_cast
    ring
  · have h := toInt_eq_low_sub_sign (n := 31) x
    simp only [value32, crossSign, if_true, h]
    ring

theorem value16_eq (sign : Bool) (x : BitVec 32) :
    value16 sign x =
      (x.extractLsb' 0 15).toNat + crossSign sign * (2 ^ 15 * ((x.getLsbD 15).toNat : ℤ)) := by
  cases sign
  · have h := toNat_extractLsb'_succ x 15
    simp only [value16, crossSign, Bool.false_eq_true, if_false, h]
    push_cast
    ring
  · simp only [value16, crossSign, if_true, signed16_eq]
    ring

theorem crossSign_mul_self (sign : Bool) : crossSign sign * crossSign sign = 1 := by
  cases sign <;> rfl

/-! ### An operation under way -/

/-- The unit is in state `st` with the operands in `m1` and `m2`. -/
structure Holding (st : MultState) (op : MultResultOp) (a b h l : BitVec 32)
    (this : MultReg) : Prop where
  state : this.state = st
  op : this.resultOp = op
  m1 : this.m1 = a
  m2 : this.m2 = b
  mach : this.mach = h
  macl : this.macl = l

variable {this : MultReg} {st : MultState} {op : MultResultOp} {a b h l : BitVec 32} {i : Clock}

theorem Holding.code_eq (hold : Holding st op a b h l this) : code this = multCode st := by
  rw [code, hold.state]

/-- Every line but those of `MAC` takes its first operand from `m1`. -/
theorem Holding.aa_eq (hold : Holding st op a b h l this) (sela : (multCode st).sela = .m1) :
    aa this = a := by
  rw [aa, hold.code_eq, if_neg (by simp [sela]), hold.m1]

/-- What a clock without a command writes into `MACH`. -/
def writtenMach (this : MultReg) : BitVec 32 :=
  if this.state = .macws1 ∧ (saturate this).1 then this.mach ||| 1
  else if (code this).machEn then (saturate this).2.extractLsb' 32 32
  else this.mach

/-- What a clock without a command writes into `MACL`. -/
def writtenMacl (this : MultReg) : BitVec 32 :=
  if (code this).maclEn then (saturate this).2.extractLsb' 0 32 else this.macl

theorem mach_step_of_noCommand (hi : NoCommand i) : (step this i.1 i.2).mach = writtenMach this := by
  rcases hs : i.1
  · simp [step, nextMach, writtenMach]
  · obtain ⟨hcmd, hwh, -⟩ := hi hs
    simp [step, nextMach, writtenMach, hcmd, hwh]

theorem macl_step_of_noCommand (hi : NoCommand i) : (step this i.1 i.2).macl = writtenMacl this := by
  rcases hs : i.1
  · simp [step, nextMacl, writtenMacl]
  · obtain ⟨hcmd, -, hwl⟩ := hi hs
    simp [step, nextMacl, writtenMacl, hcmd, hwl]

/-- An idle clock in a busy line goes one line further. -/
theorem Holding.step (hold : Holding st op a b h l this) (busy : (multCode st).busy = true)
    (hi : Idle i) :
    Holding (multCode st).state op a b (writtenMach this) (writtenMacl this)
      (step this i.1 i.2) where
  state := by rw [state_step_of_noCommand this hi.noCommand, hold.code_eq]
  op := by rw [resultOp_step_of_busy this (by rw [hold.code_eq, busy]), hold.op]
  m1 := by rw [m1_step_of_idle this hi, hold.m1]
  m2 := by rw [m2_step_of_noCommand this hi.noCommand, hold.m2]
  mach := mach_step_of_noCommand hi.noCommand
  macl := macl_step_of_noCommand hi.noCommand

/-- A unit at rest keeps `MACH` and `MACL` through idle clocks. -/
theorem rest_run {clocks : List Clock} (state : this.state = .nop) (hi : ∀ i ∈ clocks, Idle i) :
    (run this clocks).state = .nop ∧ (run this clocks).mach = this.mach ∧
      (run this clocks).macl = this.macl := by
  induction clocks generalizing this with
  | nil => exact ⟨state, rfl, rfl⟩
  | cons j rest ih =>
    have hj := (hi j (by simp)).noCommand
    have hcode : code this = multCode .nop := by rw [code, state]
    have next : (Mult.step this j.1 j.2).state = .nop := by
      rw [state_step_of_noCommand this hj, hcode]
      rfl
    obtain ⟨hstate, hmach, hmacl⟩ := ih next fun k hk => hi k (List.mem_cons_of_mem j hk)
    rw [run_cons]
    refine ⟨hstate, hmach.trans ?_, hmacl.trans ?_⟩
    · rw [mach_step_of_noCommand hj, writtenMach, hcode, if_neg (by simp [state])]
      rfl
    · rw [macl_step_of_noCommand hj, writtenMacl, hcode]
      rfl

/-- The slot gives command `cmd` with the operands `a`, from `m1` or loaded in the
same slot, and `b`. -/
structure Gives (this : MultReg) (cmd : MultState) (s : Bool) (a b : BitVec 32) (i : Clock) :
    Prop where
  slot : i.1 = true
  command : i.2.command = cmd
  s : i.2.s = s
  first : (if i.2.wrM1 then i.2.in1 else this.m1) = a
  second : i.2.in2 = b
  wrMach : i.2.wrMach = false
  wrMacl : i.2.wrMacl = false

/-- A command to a unit at rest; only `MAC` keeps `MACL`, and only the 64-bit
products clear `MACH`. -/
theorem Holding.of_gives {cmd : MultState} {s : Bool} (idle : this.state = .nop)
    (hi : Gives this cmd s a b i) (real : cmd ≠ .nop) :
    Holding (if cmd = .macw ∧ s then .macws else cmd)
      (if cmd = .macl ∧ s then .saturate64 else if cmd = .macw ∧ s then .saturate32 else .identity)
      a b (if cmd = .dmulsl ∨ cmd = .dmulul then 0 else this.mach)
      (if cmd = .macl ∨ cmd = .macw then this.macl else 0) (Mult.step this i.1 i.2) := by
  have hcode : code this = multCode .nop := by rw [code, idle]
  have free : (code this).busy = false := by rw [hcode]; rfl
  obtain ⟨hslot, rfl, rfl, hfirst, hsecond, hwh, hwl⟩ := hi
  refine ⟨?_, ?_, ?_, ?_, ?_, ?_⟩
  · simp [Mult.step, nextState, free, hslot]
  · simp [Mult.step, nextResultOp, free, hslot]
  · simpa [Mult.step, hslot] using hfirst
  · simp [Mult.step, hslot, real, hsecond]
  · simp [Mult.step, nextMach, hslot, hwh, idle, hcode, multCode]
  · by_cases hm : i.2.command = .macl ∨ i.2.command = .macw
    · rcases hm with hm | hm <;> simp [Mult.step, nextMacl, hslot, hwl, hcode, multCode, hm]
    · obtain ⟨hl, hw⟩ : i.2.command ≠ .macl ∧ i.2.command ≠ .macw := by tauto
      simp [Mult.step, nextMacl, hslot, hwl, hcode, multCode, hl, hw, real]

/-! ### The addends -/

/-- The second line of a 16-bit operation adds the product of the low halves. -/
theorem c_step_b16 (hold : Holding st op a b h l this) (busy : (multCode st).busy = true)
    (hi : Idle i) (sela : (multCode st).sela = .m1) (size : (multCode st).size = .b16)
    (shift : (multCode st).shift = false)
    (sela' : (multCode (multCode st).state).sela = .m1)
    (size' : (multCode (multCode st).state).size = .b16) :
    c (step this i.1 i.2) =
      BitVec.ofInt 64 (value16 (multCode (multCode st).state).sign a *
        value16 (multCode (multCode st).state).sign b) := by
  have next := hold.step busy hi
  -- the product of the low bits, and the cross terms of the two sign bits
  have habh : (step this i.1 i.2).abh.toNat =
      (a.extractLsb' 0 15).toNat * (b.extractLsb' 0 15).toNat := by
    show (product this).toNat = _
    rw [toNat_product_b16 this (by rw [hold.code_eq, size]), hold.aa_eq sela, hold.m2]
  have hp23 : (step this i.1 i.2).p23.toNat =
      (a.getLsbD 15).toNat * (b.extractLsb' 0 15).toNat +
        (b.getLsbD 15).toNat * (a.extractLsb' 0 15).toNat := by
    show (p2 this + p3 this).toNat = _
    rw [toNat_p23_b16 this (by rw [hold.code_eq, size]) (by rw [hold.code_eq, shift]),
      hold.aa_eq sela, hold.m2]
  have hshift : (step this i.1 i.2).shift = false := by
    show (code this).shift = false
    rw [hold.code_eq, shift]
  have small : (step this i.1 i.2).abh.toNat < 2 ^ 30 := by
    rw [habh, show 2 ^ 30 = 2 ^ 15 * 2 ^ 15 by rfl]
    exact Nat.mul_lt_mul'' (isLt _) (isLt _)
  have cross : (step this i.1 i.2).p23.toNat < 2 ^ 16 := by
    have ha : (a.extractLsb' 0 15).toNat < 2 ^ 15 := isLt _
    have hb : (b.extractLsb' 0 15).toNat < 2 ^ 15 := isLt _
    rw [hp23]
    cases a.getLsbD 15 <;> cases b.getLsbD 15 <;> simp <;> omega
  rw [c_b16_eq _ (by rw [next.code_eq, size']) hshift small cross, next.aa_eq sela', next.code_eq,
    next.m2, habh, hp23, value16_eq, value16_eq]
  congr 1
  push_cast
  -- the product of the sign bits is left
  linear_combination (-(2 ^ 30 * (a.getLsbD 15).toNat * (b.getLsbD 15).toNat : ℤ)) *
    crossSign_mul_self (multCode (multCode st).state).sign

/-- The second line of a 32-bit operation adds the product with the low half of
the second operand. -/
theorem c_step_low (hold : Holding st op a b h l this) (busy : (multCode st).busy = true)
    (hi : Idle i) (sela : (multCode st).sela = .m1) (size : (multCode st).size = .b32)
    (shift : (multCode st).shift = false)
    (size' : (multCode (multCode st).state).size = .b32) :
    c (step this i.1 i.2) = BitVec.ofInt 64 (lowPart a b) := by
  have next := hold.step busy hi
  have habh : (step this i.1 i.2).abh.toNat =
      (a.extractLsb' 0 31).toNat * (b.extractLsb' 0 16).toNat := by
    show (product this).toNat = _
    rw [toNat_product_low this (by rw [hold.code_eq, size]) (by rw [hold.code_eq, shift]),
      hold.aa_eq sela, hold.m2]
  have hshift : (step this i.1 i.2).shift = false := by
    show (code this).shift = false
    rw [hold.code_eq, shift]
  have cross : (step this i.1 i.2).p23 = 0 :=
    p23_low this (by rw [hold.code_eq, size]) (by rw [hold.code_eq, shift])
  apply eq_ofInt_of_toNat
  rw [toNat_c_low _ (by rw [next.code_eq, size']) hshift cross, habh, lowPart]
  push_cast
  rfl

/-- The third line adds the rest, with the signs of the operands taken in. -/
theorem c_step_high (hold : Holding st op a b h l this) (busy : (multCode st).busy = true)
    (hi : Idle i) (sela : (multCode st).sela = .m1) (size : (multCode st).size = .b32)
    (shift : (multCode st).shift = true)
    (sela' : (multCode (multCode st).state).sela = .m1)
    (size' : (multCode (multCode st).state).size = .b32) :
    c (step this i.1 i.2) =
      BitVec.ofInt 64 (value32 (multCode (multCode st).state).sign a *
        value32 (multCode (multCode st).state).sign b - lowPart a b) := by
  have next := hold.step busy hi
  -- the high half of the product, and the cross terms of the two sign bits
  have habh : (step this i.1 i.2).abh.toNat =
      (a.extractLsb' 0 31).toNat * (b.extractLsb' 16 15).toNat := by
    show (product this).toNat = _
    rw [toNat_product_high this (by rw [hold.code_eq, size]) (by rw [hold.code_eq, shift]),
      hold.aa_eq sela, hold.m2]
  have hp23 : (step this i.1 i.2).p23.toNat =
      (a.getLsbD 31).toNat * (b.extractLsb' 0 31).toNat +
        (b.getLsbD 31).toNat * (a.extractLsb' 0 31).toNat := by
    show (p2 this + p3 this).toNat = _
    rw [toNat_p23_high this (by rw [hold.code_eq, size]) (by rw [hold.code_eq, shift]),
      hold.aa_eq sela, hold.m2]
  have hshift : (step this i.1 i.2).shift = true := by
    show (code this).shift = true
    rw [hold.code_eq, shift]
  have small : (step this i.1 i.2).abh.toNat < 2 ^ 46 := by
    rw [habh, show 2 ^ 46 = 2 ^ 31 * 2 ^ 15 by rfl]
    exact Nat.mul_lt_mul'' (isLt _) (isLt _)
  have halves := toNat_low_halves b
  rw [c_high_eq _ (by rw [next.code_eq, size']) hshift small, next.aa_eq sela', next.code_eq,
    next.m2, habh, hp23, value32_eq, value32_eq, lowPart]
  congr 1
  push_cast
  -- the product of the sign bits is left, and the low half
  linear_combination (-(2 ^ 62 * (a.getLsbD 31).toNat * (b.getLsbD 31).toNat : ℤ)) *
      crossSign_mul_self (multCode (multCode st).state).sign -
    ((a.extractLsb' 0 31).toNat : ℤ) * halves

/-! ### Write-back -/

theorem extractLsb'_ofInt (x : ℤ) :
    (BitVec.ofInt 64 x).extractLsb' 0 32 = BitVec.ofInt 32 x := by
  apply eq_of_toNat_eq
  simp only [extractLsb'_toNat, toNat_ofInt, Nat.shiftRight_zero]
  omega

/-- The low half of the accumulator does not depend on `use_h`. -/
theorem extractLsb'_acc (this : MultReg) :
    (acc this).extractLsb' 0 32 = (c this).extractLsb' 0 32 + this.macl := by
  apply eq_of_toNat_eq
  rw [acc]
  simp only [extractLsb'_toNat, toNat_add, toNat_append_add, Nat.shiftRight_zero]
  omega

theorem writtenMach_of_machEn (h : (code this).machEn = true) (op : this.resultOp = .identity)
    (state : this.state ≠ .macws1) : writtenMach this = (acc this).extractLsb' 32 32 := by
  rw [writtenMach, if_neg (by simp [state]), if_pos h, saturate, op]

theorem writtenMach_of_keep (h : (code this).machEn = false) (state : this.state ≠ .macws1) :
    writtenMach this = this.mach := by
  rw [writtenMach, if_neg (by simp [state]), if_neg (by simp [h])]

theorem writtenMacl_of_maclEn (h : (code this).maclEn = true) (op : this.resultOp = .identity) :
    writtenMacl this = (c this).extractLsb' 0 32 + this.macl := by
  rw [writtenMacl, if_pos h, saturate, op, extractLsb'_acc]

theorem writtenMacl_of_keep (h : (code this).maclEn = false) : writtenMacl this = this.macl := by
  rw [writtenMacl, if_neg (by simp [h])]

/-- A line that writes both halves back takes the accumulator. -/
theorem written_of_both (hh : (code this).machEn = true) (hl : (code this).maclEn = true)
    (op : this.resultOp = .identity) (state : this.state ≠ .macws1)
    (useH : (code this).useH = true) :
    writtenMach this ++ writtenMacl this = c this + mac this := by
  rw [writtenMach_of_machEn hh op state, writtenMacl, if_pos hl, saturate, op, append_halves,
    acc_eq this useH]

/-! ### The lines of an operation -/

/-- A 32-bit operation: three lines, the last two of which write `MACL`, and `MACH`
too if `full`. -/
structure LongLines (sign full : Bool) (st st1 st2 : MultState) : Prop where
  first : multCode st = ⟨st1, true, .m1, false, sign, .b32, false, false, full⟩
  second : multCode st1 = ⟨st2, true, .m1, true, sign, .b32, full, true, full⟩
  third : multCode st2 = ⟨.nop, false, .m1, true, sign, .b32, full, true, full⟩

/-- A 16-bit operation on `MACL`: two lines, the second of which writes. -/
structure ShortLines (sign : Bool) (st st1 : MultState) : Prop where
  first : multCode st = ⟨st1, true, .m1, false, sign, .b16, false, false, false⟩
  second : multCode st1 = ⟨.nop, false, .m1, false, sign, .b16, false, true, false⟩

theorem LongLines.ne_macws1 {sign full : Bool} {st st1 st2 : MultState}
    (lines : LongLines sign full st st1 st2) : st ≠ .macws1 ∧ st1 ≠ .macws1 ∧ st2 ≠ .macws1 := by
  obtain ⟨h1, h2, h3⟩ := lines
  refine ⟨?_, ?_, ?_⟩ <;> rintro rfl <;> simp [multCode] at h1 h2 h3

variable {sign full : Bool} {st1 st2 : MultState} {j k m : Clock} {rest : List Clock}

/-- The second line of a 32-bit operation adds the low part of the product, the
third the rest. -/
theorem Holding.long (hold : Holding st .identity a b h l this)
    (lines : LongLines sign full st st1 st2) (hj : Idle j) (hk : Idle k) (hm : Idle m) :
    (run this [j, k, m]).state = .nop ∧
      (run this [j, k, m]).macl = BitVec.ofInt 32 (value32 sign a * value32 sign b) + l ∧
      (full = true → mac (run this [j, k, m]) =
        BitVec.ofInt 64 (value32 sign a * value32 sign b) + (h ++ l)) ∧
      (full = false → (run this [j, k, m]).mach = h) := by
  obtain ⟨hne, hne1, hne2⟩ := lines.ne_macws1
  obtain ⟨line, line1, line2⟩ := lines
  -- the first line keeps both halves and starts the low part of the product
  have hmach0 : writtenMach this = h := by
    rw [writtenMach_of_keep (by rw [hold.code_eq, line]) (by rw [hold.state]; exact hne), hold.mach]
  have hmacl0 : writtenMacl this = l := by
    rw [writtenMacl_of_keep (by rw [hold.code_eq, line]), hold.macl]
  have hold1 := hold.step (by rw [line]) hj
  have hlow := c_step_low hold (by rw [line]) hj (by rw [line]) (by rw [line]) (by rw [line])
    (by rw [line, line1])
  rw [hmach0, hmacl0, line] at hold1
  rw [run_cons]
  generalize Mult.step this j.1 j.2 = t1 at hold1 hlow ⊢
  have hold2 := hold1.step (by rw [line1]) hk
  have hhigh := c_step_high hold1 (by rw [line1]) hk (by rw [line1]) (by rw [line1])
    (by rw [line1]) (by rw [line1, line2]) (by rw [line1, line2])
  -- the second line adds the low part
  have hmacl1 : writtenMacl t1 = BitVec.ofInt 32 (lowPart a b) + l := by
    rw [writtenMacl_of_maclEn (by rw [hold1.code_eq, line1]) hold1.op, hlow, extractLsb'_ofInt,
      hold1.macl]
  have hmac1 (hfull : full = true) :
      writtenMach t1 ++ writtenMacl t1 = BitVec.ofInt 64 (lowPart a b) + (h ++ l) := by
    rw [written_of_both (by rw [hold1.code_eq, line1, hfull]) (by rw [hold1.code_eq, line1])
      hold1.op (by rw [hold1.state]; exact hne1) (by rw [hold1.code_eq, line1, hfull]), hlow, mac,
      hold1.mach, hold1.macl]
  have hmach1 (hfull : full = false) : writtenMach t1 = h := by
    rw [writtenMach_of_keep (by rw [hold1.code_eq, line1, hfull])
      (by rw [hold1.state]; exact hne1), hold1.mach]
  -- the third line adds what is left of the product
  rw [line1] at hold2
  rw [line1, line2] at hhigh
  rw [run_cons]
  generalize Mult.step t1 k.1 k.2 = t2 at hold2 hhigh ⊢
  have hmach : (Mult.step t2 m.1 m.2).mach = _ := mach_step_of_noCommand hm.noCommand
  have hmacl : (Mult.step t2 m.1 m.2).macl = _ := macl_step_of_noCommand hm.noCommand
  -- which together is the product
  have parts : value32 sign a * value32 sign b =
      (value32 sign a * value32 sign b - lowPart a b) + lowPart a b := by ring
  rw [run_cons, run_nil]
  refine ⟨?_, ?_, ?_, ?_⟩
  · rw [state_step_of_noCommand t2 hm.noCommand, hold2.code_eq, line2]
  · rw [hmacl, writtenMacl_of_maclEn (by rw [hold2.code_eq, line2]) hold2.op, hhigh,
      extractLsb'_ofInt, hold2.macl, hmacl1, ← BitVec.add_assoc, ← BitVec.ofInt_add, ← parts]
  · intro hfull
    rw [mac, hmach, hmacl, written_of_both (by rw [hold2.code_eq, line2, hfull])
      (by rw [hold2.code_eq, line2]) hold2.op (by rw [hold2.state]; exact hne2)
      (by rw [hold2.code_eq, line2, hfull]), hhigh, mac, hold2.mach, hold2.macl, hmac1 hfull,
      ← BitVec.add_assoc, ← BitVec.ofInt_add, ← parts]
  · intro hfull
    rw [hmach, writtenMach_of_keep (by rw [hold2.code_eq, line2, hfull])
      (by rw [hold2.state]; exact hne2), hold2.mach, hmach1 hfull]

/-- After the first line of a 16-bit operation the addend is the product. -/
theorem Holding.short (hold : Holding st op a b h l this) (lines : ShortLines sign st st1)
    (hj : Idle j) :
    Holding st1 op a b h l (Mult.step this j.1 j.2) ∧
      c (Mult.step this j.1 j.2) = BitVec.ofInt 64 (value16 sign a * value16 sign b) := by
  obtain ⟨line, line1⟩ := lines
  have hne : this.state ≠ .macws1 := by
    rw [hold.state]
    rintro rfl
    simp [multCode] at line
  have hold1 := hold.step (by rw [line]) hj
  have hc := c_step_b16 hold (by rw [line]) hj (by rw [line]) (by rw [line]) (by rw [line])
    (by rw [line, line1]) (by rw [line, line1])
  rw [writtenMach_of_keep (by rw [hold.code_eq, line]) hne, hold.mach,
    writtenMacl_of_keep (by rw [hold.code_eq, line]), hold.macl, line] at hold1
  rw [line, line1] at hc
  exact ⟨hold1, hc⟩

/-! ### The multiplications -/

/-- The number of lines a command runs through. -/
def lines : MultState → ℕ
  | .nop => 0
  | .mulsw | .muluw | .macw | .macws => 2
  | _ => 3

/-- What a multiplication leaves, from `mach` in `MACH`. -/
def ProductResult (cmd : MultState) (a b mach : BitVec 32) (this : MultReg) : Prop :=
  match cmd with
  | .dmulsl => (mac this).toInt = a.toInt * b.toInt
  | .dmulul => (mac this).toNat = a.toNat * b.toNat
  | .mull => this.macl = a * b ∧ this.mach = mach
  | .mulsw => this.macl.toInt = signed16 a * signed16 b ∧ this.mach = mach
  | .muluw =>
    this.macl.toNat = (a.extractLsb' 0 16).toNat * (b.extractLsb' 0 16).toNat ∧ this.mach = mach
  | _ => True

theorem ProductResult.congr {cmd : MultState} {mach : BitVec 32} {t : MultReg}
    (h : ProductResult cmd a b mach this) (hmach : t.mach = this.mach) (hmacl : t.macl = this.macl) :
    ProductResult cmd a b mach t := by
  cases cmd <;> simp only [ProductResult, mac, hmach, hmacl] at h ⊢ <;> exact h

/-- The multiplication commands of the unit. -/
def IsProduct (cmd : MultState) : Prop :=
  cmd = .dmulsl ∨ cmd = .dmulul ∨ cmd = .mull ∨ cmd = .mulsw ∨ cmd = .muluw

instance (cmd : MultState) : Decidable (IsProduct cmd) := inferInstanceAs (Decidable (_ ∨ _))

theorem abs_signed16_mul_le (a b : BitVec 32) : |signed16 a * signed16 b| ≤ 2 ^ 30 := by
  have bound (x : BitVec 32) : |signed16 x| ≤ 2 ^ 15 := by
    have h1 := (x.extractLsb' 0 16).le_toInt
    have h2 := (x.extractLsb' 0 16).toInt_lt
    rw [signed16, abs_le]
    omega
  calc |signed16 a * signed16 b| = |signed16 a| * |signed16 b| := abs_mul _ _
    _ ≤ 2 ^ 15 * 2 ^ 15 := mul_le_mul (bound a) (bound b) (abs_nonneg _) (by decide)
    _ = 2 ^ 30 := by norm_num

/-- The last line of a 16-bit multiplication writes its product over a cleared
`MACL`. -/
theorem Holding.product16 (hold : Holding st .identity a b h 0 this)
    (lines : ShortLines sign st st1) (hne1 : st1 ≠ .macws1) (hj : Idle j) (hk : Idle k) :
    (run this [j, k]).state = .nop ∧
      (run this [j, k]).macl = BitVec.ofInt 32 (value16 sign a * value16 sign b) ∧
      (run this [j, k]).mach = h := by
  obtain ⟨hold1, hc⟩ := hold.short lines hj
  obtain ⟨-, line1⟩ := lines
  rw [run_cons, run_cons, run_nil]
  generalize Mult.step this j.1 j.2 = t1 at hold1 hc ⊢
  refine ⟨?_, ?_, ?_⟩
  · rw [state_step_of_noCommand t1 hk.noCommand, hold1.code_eq, line1]
  · rw [macl_step_of_noCommand hk.noCommand, writtenMacl_of_maclEn (by rw [hold1.code_eq, line1])
      hold1.op, hc, extractLsb'_ofInt, hold1.macl]
    exact BitVec.add_zero _
  · rw [mach_step_of_noCommand hk.noCommand, writtenMach_of_keep (by rw [hold1.code_eq, line1])
      (by rw [hold1.state]; exact hne1), hold1.mach]

private theorem add_zero_halves (x : BitVec 64) : x + (0#32 ++ 0#32) = x := BitVec.add_zero x

/-- From the slot of the command on, the lines of a multiplication leave its
result. -/
theorem run_lines {cmd : MultState} {mach : BitVec 32} {s : Bool} (idle : this.state = .nop)
    (product : IsProduct cmd) (hi : Gives this cmd s a b i) {clocks : List Clock}
    (stable : ∀ j ∈ clocks, Idle j) (long : clocks.length = lines cmd)
    (hmach : this.mach = mach) :
    (run this (i :: clocks)).state = .nop ∧ ProductResult cmd a b mach (run this (i :: clocks)) := by
  have hold := Holding.of_gives idle hi (by rcases product with h | h | h | h | h <;> simp [h])
  rw [run_cons]
  generalize Mult.step this i.1 i.2 = t at hold ⊢
  -- the two long products with both halves, the long one with the low half, and the two short
  -- ones
  rcases product with rfl | rfl | rfl | rfl | rfl
  · obtain ⟨j, k, m, rfl⟩ := List.length_eq_three.mp long
    obtain ⟨hstate, -, hmac, -⟩ := hold.long (⟨rfl, rfl, rfl⟩ : LongLines true true _ _ _)
      (stable j (by simp)) (stable k (by simp)) (stable m (by simp))
    have hab := abs_le.mp (abs_product_le a b)
    refine ⟨hstate, ?_⟩
    have hsum : mac (run t [j, k, m]) = BitVec.ofInt 64 (a.toInt * b.toInt) :=
      (hmac rfl).trans (add_zero_halves _)
    show (mac (run t [j, k, m])).toInt = _
    rw [hsum, toInt_ofInt_eq_self (by decide) (by omega) (by omega)]
  · obtain ⟨j, k, m, rfl⟩ := List.length_eq_three.mp long
    obtain ⟨hstate, -, hmac, -⟩ := hold.long (⟨rfl, rfl, rfl⟩ : LongLines false true _ _ _)
      (stable j (by simp)) (stable k (by simp)) (stable m (by simp))
    have hab : a.toNat * b.toNat < 2 ^ 32 * 2 ^ 32 := Nat.mul_lt_mul'' (isLt _) (isLt _)
    refine ⟨hstate, ?_⟩
    have hsum : mac (run t [j, k, m]) = BitVec.ofInt 64 ((a.toNat * b.toNat : ℕ) : ℤ) := by
      rw [Nat.cast_mul]
      exact (hmac rfl).trans (add_zero_halves _)
    show (mac (run t [j, k, m])).toNat = _
    rw [hsum, ofInt_natCast, toNat_ofNat, Nat.mod_eq_of_lt (by omega)]
  · obtain ⟨j, k, m, rfl⟩ := List.length_eq_three.mp long
    obtain ⟨hstate, hmacl, -, hmach'⟩ := hold.long (⟨rfl, rfl, rfl⟩ : LongLines true false _ _ _)
      (stable j (by simp)) (stable k (by simp)) (stable m (by simp))
    refine ⟨hstate, ?_, (hmach' rfl).trans hmach⟩
    have hsum : (run t [j, k, m]).macl = BitVec.ofInt 32 (a.toInt * b.toInt) :=
      hmacl.trans (BitVec.add_zero _)
    rw [hsum, ofInt_mul, ofInt_toInt, ofInt_toInt]
  · obtain ⟨j, k, rfl⟩ := List.length_eq_two.mp long
    obtain ⟨hstate, hmacl, hmach'⟩ := hold.product16 (⟨rfl, rfl⟩ : ShortLines true _ _) (by decide)
      (stable j (by simp)) (stable k (by simp))
    have hab := abs_le.mp (abs_signed16_mul_le a b)
    have hvalue : value16 true a * value16 true b = signed16 a * signed16 b := rfl
    refine ⟨hstate, ?_, hmach'.trans hmach⟩
    rw [hmacl, hvalue, toInt_ofInt_eq_self (by decide) (by omega) (by omega)]
  · obtain ⟨j, k, rfl⟩ := List.length_eq_two.mp long
    obtain ⟨hstate, hmacl, hmach'⟩ := hold.product16 (⟨rfl, rfl⟩ : ShortLines false _ _) (by decide)
      (stable j (by simp)) (stable k (by simp))
    have hab : (a.extractLsb' 0 16).toNat * (b.extractLsb' 0 16).toNat < 2 ^ 16 * 2 ^ 16 :=
      Nat.mul_lt_mul'' (isLt _) (isLt _)
    have hvalue : value16 false a * value16 false b =
        (((a.extractLsb' 0 16).toNat * (b.extractLsb' 0 16).toNat : ℕ) : ℤ) := by
      rw [Nat.cast_mul]
      rfl
    refine ⟨hstate, ?_, hmach'.trans hmach⟩
    rw [hmacl, hvalue, ofInt_natCast, toNat_ofNat, Nat.mod_eq_of_lt (by omega)]

/-- With the operands left alone every multiplication ends with the exact product,
whatever the registers of the resting unit held before. -/
theorem product_results (this : MultReg) {cmd : MultState} {s : Bool} {a b : BitVec 32}
    {i : Clock} {clocks : List Clock} (idle : this.state = .nop) (product : IsProduct cmd)
    (hi : Gives this cmd s a b i) (stable : ∀ j ∈ clocks, Idle j)
    (long : lines cmd ≤ clocks.length) :
    (run this (i :: clocks)).state = .nop ∧
      ProductResult cmd a b this.mach (run this (i :: clocks)) := by
  have hlen : (clocks.take (lines cmd)).length = lines cmd := by simp [long]
  obtain ⟨hstate, hresult⟩ := run_lines idle product hi
    (fun j hj => stable j (List.mem_of_mem_take hj)) hlen rfl
  obtain ⟨hrest, hmach, hmacl⟩ := rest_run hstate
    fun j (hj : j ∈ clocks.drop (lines cmd)) => stable j (List.mem_of_mem_drop hj)
  rw [← run_append, List.cons_append, List.take_append_drop] at hrest hmach hmacl
  exact ⟨hrest, hresult.congr hmach hmacl⟩

/-- A resting unit with leftovers in every register, the smallest halves in `m1`. -/
def multDirty : MultReg :=
  { state := .nop, resultOp := .saturate64, m1 := 0x80008000#32, m2 := 5, mb := 7, p23 := 9,
    mach := 0x12345678#32, macl := 11, shift := true, abh := 13 }

/-- A slot with command `cmd` and second operand `b`. -/
def commandSlot (cmd : MultState) (s : Bool) (b : BitVec 32) : Clock :=
  (true, ⟨false, cmd, s, false, false, 0, b⟩)

theorem product_results_multDirty :
    (run multDirty [commandSlot .mulsw false 0x00018000#32, waitClock, waitClock]).state = .nop ∧
      ProductResult .mulsw 0x80008000#32 0x00018000#32 0x12345678#32
        (run multDirty [commandSlot .mulsw false 0x00018000#32, waitClock, waitClock]) :=
  product_results multDirty rfl (by decide) ⟨rfl, rfl, rfl, rfl, rfl, rfl, rfl⟩
    (by simp [idle_waitClock]) (by decide)

/-! ### The saturating MAC.W -/

/-- Clamping to the signed 32-bit range. -/
def clamp32 (x : ℤ) : ℤ := clamp (-2 ^ 31) (2 ^ 31 - 1) x

/-- The number lies in the signed 32-bit range. -/
def InRange32 (x : ℤ) : Prop := -2 ^ 31 ≤ x ∧ x ≤ 2 ^ 31 - 1

instance (x : ℤ) : Decidable (InRange32 x) := inferInstanceAs (Decidable (_ ∧ _))

/-- The 32-bit saturation as a choice by the signs of `MACL`, the sum and the
addend. -/
theorem saturate_of_saturate32 {m z x : ℤ} (op : this.resultOp = .saturate32)
    (hm : this.macl.getLsbD 31 = decide (m < 0)) (hz : (acc this).getLsbD 31 = decide (z < 0))
    (hx : (c this).getLsbD 31 = decide (x < 0)) :
    saturate this =
      if ¬x < 0 ∧ ¬m < 0 ∧ z < 0 then (true, p32max)
      else if x < 0 ∧ m < 0 ∧ ¬z < 0 then (true, n32max)
      else (false, acc this) := by
  rw [saturate, op]
  simp only [region32, hm, hz, hx]
  by_cases h1 : m < 0 <;> by_cases h2 : z < 0 <;> by_cases h3 : x < 0 <;>
    simp [h1, h2, h3]

/-- The three sign bits of the 32-bit saturation clamp the sum of `MACL` and a
small addend, and the flag is set exactly if the sum was out of range. -/
theorem saturate32_eq (this : MultReg) (op : this.resultOp = .saturate32) {x : ℤ}
    (hc : c this = BitVec.ofInt 64 x) (hlo : -2 ^ 30 ≤ x) (hhi : x ≤ 2 ^ 30) :
    ((saturate this).2.extractLsb' 0 32).toInt = clamp32 (this.macl.toInt + x) ∧
      ((saturate this).1 = true ↔ ¬InRange32 (this.macl.toInt + x)) := by
  have hl : ((acc this).extractLsb' 0 32).toInt = (x + this.macl.toInt).bmod (2 ^ 32) := by
    rw [extractLsb'_acc, hc, extractLsb'_ofInt, toInt_add, toInt_ofInt]
    simp
  have hbit (y : BitVec 64) : y.getLsbD 31 = decide ((y.extractLsb' 0 32).toInt < 0) := by
    have h := msb_eq_toInt (x := y.extractLsb' 0 32)
    rw [← h, msb_eq_getLsbD_last]
    simp
  have hx : (BitVec.ofInt 32 x).toInt = x := toInt_ofInt_eq_self (by decide) (by omega) (by omega)
  have hcbit : (c this).getLsbD 31 = decide (x < 0) := by
    rw [hbit, hc, extractLsb'_ofInt, hx]
  have hmbit : this.macl.getLsbD 31 = decide (this.macl.toInt < 0) := by
    rw [← msb_eq_toInt, msb_eq_getLsbD_last]
  have habit := hbit (acc this)
  have h1 := this.macl.le_toInt
  have h2 := this.macl.toInt_lt
  -- the sum of the low halves wraps at most once
  have hwrap : ((acc this).extractLsb' 0 32).toInt = x + this.macl.toInt ∨
      ((acc this).extractLsb' 0 32).toInt = x + this.macl.toInt - 2 ^ 32 ∧
        2 ^ 31 ≤ x + this.macl.toInt ∨
      ((acc this).extractLsb' 0 32).toInt = x + this.macl.toInt + 2 ^ 32 ∧
        x + this.macl.toInt < -2 ^ 31 := by
    rw [hl, Int.bmod]
    split <;> omega
  have hbound := ((acc this).extractLsb' 0 32).le_toInt
  have hbound' := ((acc this).extractLsb' 0 32).toInt_lt
  have inside (h : InRange32 (this.macl.toInt + x)) :
      clamp32 (this.macl.toInt + x) = this.macl.toInt + x := clamp_of_mem h.1 h.2
  have above (h : 2 ^ 31 ≤ this.macl.toInt + x) :
      clamp32 (this.macl.toInt + x) = (p32max.extractLsb' 0 32).toInt :=
    clamp_of_ge (by omega) (by decide)
  have below (h : this.macl.toInt + x < -2 ^ 31) :
      clamp32 (this.macl.toInt + x) = (n32max.extractLsb' 0 32).toInt :=
    clamp_of_le (by omega) (by decide)
  rw [saturate_of_saturate32 op hmbit habit hcbit]
  -- which is seen from the signs of the summands
  rcases hwrap with hsum | ⟨hsum, hout⟩ | ⟨hsum, hout⟩
  · have hin : InRange32 (this.macl.toInt + x) := by
      unfold InRange32
      omega
    rw [if_neg (by omega), if_neg (by omega), inside hin, hsum]
    exact ⟨Int.add_comm _ _, by simp [hin]⟩
  · have hin : ¬InRange32 (this.macl.toInt + x) := by
      unfold InRange32
      omega
    rw [if_pos (by omega), above (by omega)]
    exact ⟨rfl, by simp [hin]⟩
  · have hin : ¬InRange32 (this.macl.toInt + x) := by
      unfold InRange32
      omega
    rw [if_neg (by omega), if_pos (by omega), below (by omega)]
    exact ⟨rfl, by simp [hin]⟩

/-- The saturating `MAC.W` leaves the clamped sum in `MACL`, and in `MACH` a mark
exactly if the sum had to be clamped. -/
theorem macws_result (this : MultReg) {a b : BitVec 32} {i : Clock} {clocks : List Clock}
    (idle : this.state = .nop) (hi : Gives this .macw true a b i) (stable : ∀ j ∈ clocks, Idle j)
    (long : lines .macw ≤ clocks.length) :
    (run this (i :: clocks)).state = .nop ∧
      (run this (i :: clocks)).macl.toInt =
        clamp32 (this.macl.toInt + signed16 a * signed16 b) ∧
      (run this (i :: clocks)).mach =
        if InRange32 (this.macl.toInt + signed16 a * signed16 b) then this.mach
        else this.mach ||| 1 := by
  have hold := Holding.of_gives idle hi (by decide)
  rw [run_cons]
  generalize step this i.1 i.2 = t at hold ⊢
  -- the command takes two lines, the rest of the clocks change nothing
  rcases clocks with _ | ⟨j, _ | ⟨k, rest⟩⟩
  · simp [lines] at long
  · simp [lines] at long
  have hk : Idle k := stable k (by simp)
  obtain ⟨hold1, hc⟩ := hold.short (⟨rfl, rfl⟩ : ShortLines true _ _) (stable j (by simp))
  rw [run_cons, run_cons]
  generalize step t j.1 j.2 = t1 at hold1 hc ⊢
  have hab := abs_le.mp (abs_signed16_mul_le a b)
  have hop : t1.resultOp = .saturate32 := hold1.op
  have hmach1 : t1.mach = this.mach := hold1.mach
  have hmacl1 : t1.macl = this.macl := hold1.macl
  have hstate1 : t1.state = .macws1 := hold1.state
  have hcode1 : code t1 = multCode .macws1 := by rw [code, hstate1]
  obtain ⟨hsum, hflag⟩ := saturate32_eq t1 hop (x := signed16 a * signed16 b) hc (by omega) (by omega)
  have hstate2 : (step t1 k.1 k.2).state = .nop := by
    rw [state_step_of_noCommand t1 hk.noCommand, hcode1]
    rfl
  obtain ⟨hrest, hmach, hmacl⟩ := rest_run hstate2
    fun m (hm : m ∈ rest) => stable m (by simp [hm])
  refine ⟨hrest, ?_, ?_⟩
  · rw [hmacl1] at hsum
    rw [hmacl, macl_step_of_noCommand hk.noCommand, writtenMacl, hcode1, ← hsum]
    rfl
  · rw [hmach, mach_step_of_noCommand hk.noCommand, writtenMach, hcode1, hmach1]
    rw [hmacl1] at hflag
    by_cases hin : InRange32 (this.macl.toInt + signed16 a * signed16 b)
    · rw [if_neg fun h => hflag.mp h.2 hin, if_pos hin]
      rfl
    · rw [if_pos ⟨hstate1, hflag.mpr hin⟩, if_neg hin]

theorem macws_result_multDirty :
    (run multDirty [commandSlot .macw true 0x00018000#32, waitClock, waitClock]).state = .nop ∧
      (run multDirty [commandSlot .macw true 0x00018000#32, waitClock, waitClock]).macl.toInt =
        clamp32 (multDirty.macl.toInt + signed16 0x80008000#32 * signed16 0x00018000#32) ∧
      (run multDirty [commandSlot .macw true 0x00018000#32, waitClock, waitClock]).mach =
        if InRange32 (multDirty.macl.toInt + signed16 0x80008000#32 * signed16 0x00018000#32)
        then multDirty.mach else multDirty.mach ||| 1 :=
  macws_result multDirty rfl ⟨rfl, rfl, rfl, rfl, rfl, rfl, rfl⟩ (by simp [idle_waitClock])
    (by decide)

end JCore.Mult
