import JCore.Decode.Pipeline
import JCore.Decode.Table
import JCore.Lib.NonRestoring
import JCore.Pack.Adder
import JCore.Pack.Shifter

/-!
# The division programs

`DIV1` is one step of a non-restoring division: the arithmetic unit adds or
subtracts as M and Q say, Q is the sign of the remainder above its 32 bits, and
T says whether the remainder now has the sign of the divisor. The programs of the
divider's test run it between the other instructions of a division.

## Main definitions

* `div0u`, `div0s`, `div1`, `rotcl`: the instructions on operands and SR
* `div6432u`, `div3216u`, `div3216s`: the programs

## Main results

* `div1_next`: `DIV1` is a step of `NonRestoring`
* `div6432u_eq`, `div3216u_eq`: the unsigned programs leave the quotient
* `div3216s_eq`: the signed program leaves the quotient rounded towards zero
-/

namespace JCore

open BitVec NonRestoring

/-! ### The instructions -/

/-- `DIV0U` clears the flags of a division. -/
def div0u (sr : Sr) : Sr := { sr with m := false, q := false, t := false }

/-- `DIV0S` of `x` by `y`. The flags do not depend on the result of the
arithmetic unit. -/
def div0s (x y : BitVec 32) (sr : Sr) : Sr :=
  let out := arithUnit x y .add false
  arithUpdateSr sr (x.getLsbD 31) (y.getLsbD 31) (out.extractLsb' 0 32) (out.getLsbD 32) .add .div0s

/-- The operation that `DIV1` carries out at runtime. -/
def div1ArithFunc (sr : Sr) : ArithFunc := if sr.m = sr.q then .sub else .add

/-- The output of the arithmetic unit in a `DIV1`. -/
def div1Out (x y : BitVec 32) (sr : Sr) : BitVec 33 :=
  arithUnit (x.extractLsb' 0 31 ++ ofBool sr.t) y (div1ArithFunc sr) false

/-- `DIV1` of `x` by `y`. -/
def div1 (x y : BitVec 32) (sr : Sr) : BitVec 32 × Sr :=
  let out := div1Out x y sr
  (out.extractLsb' 0 32,
    arithUpdateSr sr (x.getLsbD 31) (y.getLsbD 31) (out.extractLsb' 0 32) (out.getLsbD 32)
      (div1ArithFunc sr) .div1)

/-- `ROTCL`. -/
def rotcl (x : BitVec 32) (sr : Sr) : BitVec 32 × Sr :=
  (bshifter (n := 5) x 0b000001#6 sr.t .rotc, { sr with t := x.getLsbD 31 })

/-! ### The instructions in the datapath -/

/-- The execute stage holds the signals of a microcode line, and SR takes them. -/
structure Executes (ctrl : StageCtrl) (line : BitVec 75) : Prop where
  inxSel : ctrl.func.alu.inxSel = DecodeTable.aluinxSel line
  inySel : ctrl.func.alu.inySel = DecodeTable.aluinySel line
  arithFunc : ctrl.func.arith.func = DecodeTable.arithFunc line
  arithSr : ctrl.func.arith.sr = DecodeTable.arithSrFunc line
  ciEn : ctrl.func.arith.ciEn = DecodeTable.arithCiEn line
  shift : ctrl.func.shift = DecodeTable.shiftfunc line
  zSel : ctrl.buses.zSel = DecodeTable.zbusSel line
  srSel : ctrl.sr.sel = DecodeTable.srSel line
  tSel : ctrl.sr.t = DecodeTable.tSel line

/-- A slot that is not stalled brings the line into the execute stage. -/
theorem executes_step (pipeline : Pipeline) (op : Operation) (tBcc : Bool) (ctrl : StageCtrl)
    (ilevel : BitVec 4)
    (func : ctrl.func = (pipeline.step true false (DecodeTable.decodeTable op tBcc false)).func)
    (buses : ctrl.buses = (pipeline.step true false (DecodeTable.decodeTable op tBcc false)).buses)
    (sr : ctrl.sr = (pipeline.step true false (DecodeTable.decodeTable op tBcc false)).sr ilevel)
    (noLoad : pipeline.wb2Stall.wrsrW = false) : Executes ctrl (microcodeLine op.addr) := by
  have hsel : ctrl.sr.sel = DecodeTable.srSel (microcodeLine op.addr) := by
    rw [sr]
    simp [Pipeline.sr, Pipeline.step, noLoad, DecodeTable.decodeTable, DecodeTable.decodeLine]
  constructor
  all_goals first | exact hsel | (simp only [func, buses, sr]; rfl)

section Instructions

variable (s : Datapath.State) {ctrl : StageCtrl} (i : DatapathI)

/-- `DIV0U` in the datapath. -/
theorem nextSr_div0u (h : Executes ctrl (microcodeLine 2)) :
    Datapath.nextSr ctrl (Datapath.processI s ctrl i) s.this.sr = div0u s.this.sr := by
  have hsel : ctrl.sr.sel = .selDiv0u := h.srSel.trans (by decide +kernel)
  rw [Datapath.nextSr, hsel]
  rfl

/-- `DIV0S` in the datapath. -/
theorem nextSr_div0s (h : Executes ctrl (microcodeLine 103)) :
    Datapath.nextSr ctrl (Datapath.processI s ctrl i) s.this.sr =
      div0s (Datapath.xbus s.this s.regs ctrl) (Datapath.ybus s.this s.regs ctrl i) s.this.sr := by
  have hsel : ctrl.sr.sel = .selArith := h.srSel.trans (by decide +kernel)
  have hsr : ctrl.func.arith.sr = .div0s := h.arithSr.trans (by decide +kernel)
  rw [Datapath.nextSr, hsel]
  simp only [hsr]
  rfl

/-- `DIV1` in the datapath. -/
theorem zbus_nextSr_div1 (h : Executes ctrl (microcodeLine 102)) :
    (Datapath.zbus s.this s.regs ctrl i,
        Datapath.nextSr ctrl (Datapath.processI s ctrl i) s.this.sr) =
      div1 (Datapath.xbus s.this s.regs ctrl) (Datapath.ybus s.this s.regs ctrl i) s.this.sr := by
  have hsel : ctrl.sr.sel = .selArith := h.srSel.trans (by decide +kernel)
  have hsr : ctrl.func.arith.sr = .div1 := h.arithSr.trans (by decide +kernel)
  have hinx : ctrl.func.alu.inxSel = .selRotcl := h.inxSel.trans (by decide +kernel)
  have hiny : ctrl.func.alu.inySel = .selYbus := h.inySel.trans (by decide +kernel)
  have hci : ctrl.func.arith.ciEn = false := h.ciEn.trans (by decide +kernel)
  have hz : ctrl.buses.zSel = .selArith := h.zSel.trans (by decide +kernel)
  have hfunc : Datapath.arithFunc s.this ctrl = div1ArithFunc s.this.sr := by
    rw [Datapath.arithFunc, if_pos hsr, div1ArithFunc]
  have hout : Datapath.arithOut s.this s.regs ctrl i =
      div1Out (Datapath.xbus s.this s.regs ctrl) (Datapath.ybus s.this s.regs ctrl i) s.this.sr := by
    simp only [Datapath.arithOut, Datapath.aluinx, Datapath.aluiny, hinx, hiny, hci, hfunc, div1Out,
      Bool.false_and]
  rw [Datapath.zbus, hz, Datapath.nextSr, hsel]
  simp only [Datapath.processI, hsr, hout, hfunc]
  rfl

/-- `ROTCL` in the datapath: its second operand is the line's constant. -/
theorem zbus_nextSr_rotcl (h : Executes ctrl (microcodeLine 22))
    (one : Datapath.ybus s.this s.regs ctrl i = 1) :
    (Datapath.zbus s.this s.regs ctrl i,
        Datapath.nextSr ctrl (Datapath.processI s ctrl i) s.this.sr) =
      rotcl (Datapath.xbus s.this s.regs ctrl) s.this.sr := by
  have hsel : ctrl.sr.sel = .selSetT := h.srSel.trans (by decide +kernel)
  have ht : ctrl.sr.t = .selShift := h.tSel.trans (by decide +kernel)
  have hshift : ctrl.func.shift = .rotc := h.shift.trans (by decide +kernel)
  have hz : ctrl.buses.zSel = .selShift := h.zSel.trans (by decide +kernel)
  have hsfto : Datapath.sfto s.this s.regs ctrl i = (Datapath.xbus s.this s.regs ctrl).getLsbD 31 := by
    rw [Datapath.sfto, one, if_neg (by decide)]
  rw [Datapath.zbus, hz, Datapath.nextSr, hsel, ht]
  simp only [one, hshift, Datapath.processI, hsfto]
  rfl

end Instructions

/-! ### The programs -/

/-- The registers of a division: the dividend's halves and SR. -/
structure DivState where
  high : BitVec 32
  low : BitVec 32
  sr : Sr
  deriving DecidableEq, Repr

/-- `ROTCL` on the low word, then `DIV1` on the high word. -/
def div6432Step (divisor : BitVec 32) (state : DivState) : DivState :=
  let rotated := rotcl state.low state.sr
  let divided := div1 state.high divisor rotated.2
  { high := divided.1, low := rotated.1, sr := divided.2 }

/-- The program for 64 by 32 bits, unsigned. -/
def div6432u (high low divisor : BitVec 32) (sr : Sr) : BitVec 32 :=
  let state := (div6432Step divisor)^[32] { high := high, low := low, sr := div0u sr }
  (rotcl state.low state.sr).1

/-- Sixteen times `DIV1`, then `ROTCL`. -/
def div3216Loop (value divisor : BitVec 32) (sr : Sr) : BitVec 32 :=
  let state := (fun state : BitVec 32 × Sr => div1 state.1 divisor state.2)^[16] (value, sr)
  (rotcl state.1 state.2).1

/-- The program for 32 by 16 bits, unsigned. -/
def div3216u (dividend : BitVec 32) (divisor : BitVec 16) (sr : Sr) : BitVec 16 :=
  (div3216Loop dividend (divisor ++ 0#16) (div0u sr)).extractLsb' 0 16

/-- The dividend of the signed program: one less if it is negative. -/
def predecrement (dividend : BitVec 32) : BitVec 32 :=
  if dividend.getLsbD 31 then dividend - 1 else dividend

/-- The signed program from the flags that `DIV0S` leaves. -/
def div3216From (sr : Sr) (value : BitVec 32) (divisor : BitVec 16) : BitVec 16 :=
  let value := div3216Loop value (divisor ++ 0#16) sr
  (if value.getLsbD 16 then value + 1 else value).extractLsb' 0 16

/-- The program for 32 by 16 bits, signed. -/
def div3216s (dividend : BitVec 32) (divisor : BitVec 16) (sr : Sr) : BitVec 16 :=
  let d := predecrement dividend
  div3216From (div0s d (divisor ++ 0#16) sr) d divisor

/-- The same with the operands of `DIV0S` the other way around, as the divider's
test sets the flags up. -/
def div3216sTap (dividend : BitVec 32) (divisor : BitVec 16) (sr : Sr) : BitVec 16 :=
  let d := predecrement dividend
  div3216From (div0s (divisor ++ 0#16) d sr) d divisor

/-! ### One step -/

/-- The remainder: 32 bits below the sign in Q. -/
def remainder (value : BitVec 32) (sr : Sr) : ℤ := value.toNat - 2 ^ 32 * (sr.q.toNat : ℤ)

/-- The magnitude of a divisor whose sign is in M. -/
def divisorSize (divisor : BitVec 32) (m : Bool) : ℤ :=
  if m then 2 ^ 32 - divisor.toNat else divisor.toNat

theorem remainder_nonneg_iff (value : BitVec 32) (sr : Sr) :
    0 ≤ remainder value sr ↔ sr.q = false := by
  have h : value.toNat < 2 ^ 32 := value.isLt
  rw [remainder]
  cases sr.q <;> simp
  omega

variable (x y : BitVec 32) (sr : Sr)

@[simp] theorem div1_m : (div1 x y sr).2.m = sr.m := rfl

theorem div1_q : (div1 x y sr).2.q = (x.getLsbD 31 ^^ sr.m ^^ (div1Out x y sr).getLsbD 32) := rfl

theorem div1_t : (div1 x y sr).2.t = !((div1 x y sr).2.q ^^ sr.m) := rfl

/-- `DIV1` first shifts its operand and T by one place. -/
theorem toNat_shifted :
    (x.extractLsb' 0 31 ++ ofBool sr.t).toNat + 2 ^ 32 * (x.getLsbD 31).toNat =
      2 * x.toNat + sr.t.toNat := by
  have hx : x.toNat < 2 ^ 32 := x.isLt
  have hbit : (x.getLsbD 31).toNat = x.toNat / 2 ^ 31 % 2 := by
    rw [← testBit_toNat, Nat.toNat_testBit]
  rw [toNat_append_add, extractLsb'_toNat, Nat.shiftRight_zero, toNat_ofBool, hbit]
  omega

/-- What the arithmetic unit makes of the shifted operand: a difference and its
borrow if M is Q, else a sum and its carry. -/
theorem toNat_div1Out :
    (((div1Out x y sr).extractLsb' 0 32).toNat : ℤ) =
      (x.extractLsb' 0 31 ++ ofBool sr.t).toNat +
        if sr.m = sr.q then 2 ^ 32 * (((div1Out x y sr).getLsbD 32).toNat : ℤ) - y.toNat
        else y.toNat - 2 ^ 32 * (((div1Out x y sr).getLsbD 32).toNat : ℤ) := by
  rw [div1Out, div1ArithFunc]
  generalize x.extractLsb' 0 31 ++ ofBool sr.t = a
  by_cases h : sr.m = sr.q
  · have hsplit := toNat_arithUnit_sub (n := 32) a y false
    rw [if_pos h, if_pos h]
    rw [Bool.toNat_false] at hsplit
    omega
  · have hsplit := toNat_arithUnit_add (n := 32) a y false
    rw [if_neg h, if_neg h]
    rw [Bool.toNat_false] at hsplit
    omega

/-- `DIV1` is a step of a division as long as the remainder is in bounds. -/
theorem div1_next (bounds : InBounds (divisorSize y sr.m) (remainder x sr)) :
    remainder (div1 x y sr).1 (div1 x y sr).2 =
      next (divisorSize y sr.m) (remainder x sr) sr.t.toNat := by
  have ht : (sr.t.toNat : ℤ) = 0 ∨ (sr.t.toNat : ℤ) = 1 := by cases sr.t <;> simp
  obtain ⟨hlo, hhi⟩ := bounds.next ht
  have hshift := toNat_shifted x sr
  have hv : ((div1Out x y sr).extractLsb' 0 32).toNat < 2 ^ 32 := isLt _
  have hout := toNat_div1Out x y sr
  have hsign := remainder_nonneg_iff x sr
  rw [remainder, div1_q]
  show (((div1Out x y sr).extractLsb' 0 32).toNat : ℤ) - _ = _
  rw [next] at hlo hhi ⊢
  simp only [hsign] at hlo hhi ⊢
  rw [remainder, divisorSize] at hlo hhi ⊢
  generalize ((div1Out x y sr).extractLsb' 0 32).toNat = v at hv hout ⊢
  generalize (div1Out x y sr).getLsbD 32 = co at hout ⊢
  generalize x.getLsbD 31 = msb at hshift ⊢
  generalize sr.m = m at hlo hhi hout ⊢
  generalize sr.q = q at hlo hhi hout ⊢
  generalize (x.extractLsb' 0 31 ++ ofBool sr.t).toNat = a at hshift hout
  -- the bounds leave one value for Q: the sign of the next remainder
  cases m <;> cases q <;> cases msb <;> cases co <;> simp at hlo hhi hshift hout ⊢ <;> omega

/-- The remainder of `DIV1` stays in bounds. -/
theorem div1_inBounds (bounds : InBounds (divisorSize y sr.m) (remainder x sr)) :
    InBounds (divisorSize y sr.m) (remainder (div1 x y sr).1 (div1 x y sr).2) := by
  rw [div1_next x y sr bounds]
  exact bounds.next (by cases sr.t <;> simp)

theorem signDigit_remainder : signDigit (remainder x sr) = 1 - sr.q.toNat := by
  have h := remainder_nonneg_iff x sr
  rw [signDigit]
  simp only [h]
  cases sr.q <;> rfl

/-- T after `DIV1` is the sign of the remainder, complemented for a negative
divisor. -/
theorem div1_t_toNat :
    ((div1 x y sr).2.t.toNat : ℤ) =
      if sr.m then 1 - signDigit (remainder (div1 x y sr).1 (div1 x y sr).2)
      else signDigit (remainder (div1 x y sr).1 (div1 x y sr).2) := by
  rw [signDigit_remainder, div1_t]
  cases sr.m <;> cases (div1 x y sr).2.q <;> rfl

/-- `ROTCL` moves T in from below. -/
theorem rotcl_eq : (rotcl x sr).1 = x.extractLsb' 0 31 ++ ofBool sr.t := by
  have hmag : magnitude (n := 5) 0b000001#6 = 1 := by decide
  have hone : 1 < 2 ^ 5 := by decide
  apply eq_of_getLsbD_eq
  intro i hi
  have hsign : (0b000001#6).getLsbD 5 = false := by decide
  rw [rotcl, getLsbD_bshifter (n := 5) x _ _ _ hsign hi, hmag,
    getLsbD_rotateLeft_of_lt x hone hi, getLsbD_append, getLsbD_extractLsb']
  rcases Nat.eq_zero_or_pos i with rfl | hpos
  · simp
  · have hne : i ≠ 0 := by omega
    have hlt : ¬i < 1 := by omega
    have hlow : i - 1 < 31 := by omega
    simp [hlt, hlow]

theorem toNat_rotcl : ((rotcl x sr).1).toNat = (2 * x.toNat + sr.t.toNat) % 2 ^ 32 := by
  have h := toNat_shifted x sr
  have hlt : (x.extractLsb' 0 31 ++ ofBool sr.t).toNat < 2 ^ 32 := isLt _
  rw [rotcl_eq]
  omega

/-! ### 32 by 16 bits -/

section Div3216

variable (value : BitVec 32) (divisor : BitVec 16)

/-- The states of the loop. -/
def div3216State (value divisor : BitVec 32) (sr : Sr) (k : ℕ) : BitVec 32 × Sr :=
  (fun state : BitVec 32 × Sr => div1 state.1 divisor state.2)^[k] (value, sr)

/-- The remainder after `k` steps. -/
def remainder3216 (k : ℕ) : ℤ :=
  remainder (div3216State value (divisor ++ 0#16) sr k).1 (div3216State value (divisor ++ 0#16) sr k).2

/-- T after `k` steps. -/
def digit3216 (k : ℕ) : ℤ := (div3216State value (divisor ++ 0#16) sr k).2.t.toNat

theorem div3216State_succ (value divisor : BitVec 32) (k : ℕ) :
    div3216State value divisor sr (k + 1) =
      div1 (div3216State value divisor sr k).1 divisor (div3216State value divisor sr k).2 :=
  Function.iterate_succ_apply' _ _ _

theorem div3216Loop_eq (value divisor : BitVec 32) :
    div3216Loop value divisor sr =
      (rotcl (div3216State value divisor sr 16).1 (div3216State value divisor sr 16).2).1 := rfl

theorem div3216State_m (value divisor : BitVec 32) (k : ℕ) :
    (div3216State value divisor sr k).2.m = sr.m := by
  induction k with
  | zero => rfl
  | succ k ih => rw [div3216State_succ, div1_m, ih]

/-- The loop is a division. -/
theorem divides3216
    (start : InBounds (divisorSize (divisor ++ 0#16) sr.m) (remainder value sr)) :
    Divides (divisorSize (divisor ++ 0#16) sr.m) (remainder3216 sr value divisor)
      (digit3216 sr value divisor) := by
  have bounds (k : ℕ) : InBounds (divisorSize (divisor ++ 0#16) sr.m)
      (remainder3216 sr value divisor k) := by
    induction k with
    | zero => exact start
    | succ k ih =>
      rw [remainder3216, div3216State_succ]
      rw [← div3216State_m sr value (divisor ++ 0#16) k] at ih ⊢
      exact div1_inBounds _ _ _ ih
  refine ⟨start, fun k => ?_, fun k => ?_⟩
  · rw [digit3216]
    cases (div3216State value (divisor ++ 0#16) sr k).2.t <;> simp
  · have h := bounds k
    rw [remainder3216, div3216State_succ]
    rw [← div3216State_m sr value (divisor ++ 0#16) k] at h ⊢
    exact div1_next _ _ _ h

/-- From the first step on T is the sign of the remainder. -/
theorem digit3216_succ (k : ℕ) :
    digit3216 sr value divisor (k + 1) =
      if sr.m then 1 - signDigit (remainder3216 sr value divisor (k + 1))
      else signDigit (remainder3216 sr value divisor (k + 1)) := by
  rw [digit3216, remainder3216, div3216State_succ, div1_t_toNat, div3216State_m]

/-- The magnitude of a 16-bit divisor. -/
def divisorSize16 (m : Bool) : ℤ := if m then 2 ^ 16 - divisor.toNat else divisor.toNat

theorem divisorSize_append (m : Bool) :
    divisorSize (divisor ++ 0#16) m = 2 ^ 16 * divisorSize16 divisor m := by
  have h : (divisor ++ 0#16).toNat = divisor.toNat * 2 ^ 16 :=
    (toNat_append_add divisor 0#16).trans (Nat.add_zero _)
  rw [divisorSize, divisorSize16, h]
  split_ifs <;> push_cast <;> ring

/-- The rotated word holds the digits of T, the last one at the bottom. -/
theorem toNat_div3216Loop (start : InBounds (2 ^ 16 * divisorSize16 divisor sr.m) (remainder value sr)) :
    ((div3216Loop value (divisor ++ 0#16) sr).toNat : ℤ) % 2 ^ 17 =
      digits (digit3216 sr value divisor) 17 := by
  rw [← divisorSize_append] at start
  have h := divides3216 sr value divisor start
  rw [divisorSize_append] at h
  have hlow := h.remainder_emod
  have hbit := Bool.toNat_le (div3216State value (divisor ++ 0#16) sr 16).2.t
  rw [digits, ← hlow, div3216Loop_eq, toNat_rotcl, remainder3216, remainder, digit3216]
  push_cast
  omega

/-- What the digits of T amount to, for the signs of dividend and divisor. -/
theorem digits_digit3216
    (start : InBounds (2 ^ 16 * divisorSize16 divisor sr.m) (remainder value sr))
    (first : sr.t = (sr.q ^^ sr.m)) :
    digits (digit3216 sr value divisor) 17 =
      if sr.m then
        2 ^ 17 * signDigit (remainder value sr) - 1 - remainder value sr / divisorSize16 divisor sr.m
      else
        remainder value sr / divisorSize16 divisor sr.m +
          2 ^ 17 * (1 - signDigit (remainder value sr)) := by
  have hstart := start
  rw [← divisorSize_append] at hstart
  have h := divides3216 sr value divisor hstart
  rw [divisorSize_append] at h
  have hdiv := h.quotient_eq_div_start
  have hfirst : digit3216 sr value divisor 0 =
      if sr.m then signDigit (remainder value sr) else 1 - signDigit (remainder value sr) := by
    show (sr.t.toNat : ℤ) = _
    rw [first, signDigit_remainder]
    cases sr.m <;> cases sr.q <;> rfl
  have hrest := digit3216_succ sr value divisor
  have hzero : remainder3216 sr value divisor 0 = remainder value sr := rfl
  rw [← hzero, ← hdiv] at *
  cases hm : sr.m
  · simp only [hm, Bool.false_eq_true, if_false] at hfirst hrest ⊢
    exact digits_of_signs hfirst hrest 16
  · simp only [hm, if_true] at hfirst hrest ⊢
    exact digits_of_complements hfirst hrest 16


/-- The unsigned program leaves the quotient if it fits. -/
theorem div3216u_eq (dividend : BitVec 32) (nonzero : divisor ≠ 0#16)
    (fits : dividend.toNat / divisor.toNat < 2 ^ 16) :
    (div3216u dividend divisor sr).toNat = dividend.toNat / divisor.toNat := by
  have hpos : 0 < divisor.toNat := by
    rw [Nat.pos_iff_ne_zero]
    exact fun h => nonzero (eq_of_toNat_eq h)
  have hlt := (Nat.div_lt_iff_lt_mul hpos).mp fits
  have hrem : remainder dividend (div0u sr) = dividend.toNat := by simp [remainder, div0u]
  have hsize : divisorSize16 divisor (div0u sr).m = divisor.toNat := by
    simp [divisorSize16, div0u]
  have start : InBounds (2 ^ 16 * divisorSize16 divisor (div0u sr).m)
      (remainder dividend (div0u sr)) := by
    rw [hrem, hsize, InBounds]
    omega
  have hword := toNat_div3216Loop (div0u sr) dividend divisor start
  have hdigits := digits_digit3216 (div0u sr) dividend divisor start rfl
  have hsign : signDigit (remainder dividend (div0u sr)) = 1 := by
    rw [signDigit_remainder]
    rfl
  rw [hdigits, hsign, hrem, hsize] at hword
  simp only [div0u, Bool.false_eq_true, if_false] at hword
  rw [div3216u, extractLsb'_toNat, Nat.shiftRight_zero]
  have hcast : ((dividend.toNat / divisor.toNat : ℕ) : ℤ) = (dividend.toNat : ℤ) / divisor.toNat :=
    Int.natCast_ediv _ _
  rw [← hcast] at hword
  show (div3216Loop dividend (divisor ++ 0#16) { sr with m := false, q := false, t := false }).toNat
    % 2 ^ 16 = _
  omega

/-! ### The signed program -/

/-- Truncation towards zero by a positive divisor. -/
theorem tdiv_eq_floor (a : ℤ) {e : ℤ} (he : 0 < e) :
    a.tdiv e = if a < 0 then (a - 1) / e + 1 else a / e := by
  split_ifs with h
  · have hneg : a.tdiv e = -((-a) / e) := by
      rw [← Int.tdiv_eq_ediv_of_nonneg (by omega : 0 ≤ -a), Int.neg_tdiv, Int.neg_neg]
    have hdiv : (a - 1) / e = -((-a) / e) - 1 := by
      rw [Int.ediv_eq_iff_of_pos he]
      have h1 := Int.mul_ediv_self_le (x := -a) (k := e) he.ne'
      have h2 := Int.lt_mul_ediv_self_add (x := -a) (k := e) he
      constructor <;> linarith only [h1, h2]
    omega
  · exact Int.tdiv_eq_ediv_of_nonneg (by omega)

/-- Complementing both M and Q changes nothing that a division reads. -/
def flip (sr : Sr) : Sr := { sr with m := !sr.m, q := !sr.q }

theorem div1_flip (x y : BitVec 32) :
    div1 x y (flip sr) = ((div1 x y sr).1, flip (div1 x y sr).2) := by
  have hfunc : div1ArithFunc (flip sr) = div1ArithFunc sr := by
    simp [div1ArithFunc, flip]
  have hout : div1Out x y (flip sr) = div1Out x y sr := by
    rw [div1Out, div1Out, hfunc]
    rfl
  rw [div1, div1, hout, hfunc]
  simp only [arithUpdateSr, flip, Prod.mk.injEq, true_and]
  cases sr.m <;> simp

theorem div3216State_flip (value divisor : BitVec 32) (k : ℕ) :
    div3216State value divisor (flip sr) k =
      ((div3216State value divisor sr k).1, flip (div3216State value divisor sr k).2) := by
  induction k with
  | zero => rfl
  | succ k ih => rw [div3216State_succ, div3216State_succ, ih, div1_flip]

theorem div3216Loop_flip (value divisor : BitVec 32) :
    div3216Loop value divisor (flip sr) = div3216Loop value divisor sr := by
  rw [div3216Loop_eq, div3216Loop_eq, div3216State_flip, rotcl_eq, rotcl_eq]
  rfl


/-- The magnitude of a nonzero divisor. -/
theorem divisorSize16_eq (nonzero : divisor ≠ 0#16) :
    0 < divisorSize16 divisor divisor.msb ∧
      divisor.toInt =
        if divisor.msb then -divisorSize16 divisor divisor.msb else divisorSize16 divisor divisor.msb := by
  have hlt : divisor.toNat < 2 ^ 16 := divisor.isLt
  have hpos : divisor.toNat ≠ 0 := fun h => nonzero (eq_of_toNat_eq h)
  rw [divisorSize16, toInt_eq_msb_cond]
  cases divisor.msb <;> simp <;> omega

/-- The dividend after its decrement, unless it is the least number. -/
theorem toInt_predecrement (dividend : BitVec 32) (room : -2 ^ 31 < dividend.toInt) :
    (predecrement dividend).toInt =
      if dividend.toInt < 0 then dividend.toInt - 1 else dividend.toInt := by
  have hbit : dividend.getLsbD 31 = decide (dividend.toInt < 0) := by
    rw [← msb_eq_toInt, msb_eq_getLsbD_last]
  have hhi : dividend.toInt < 2 ^ 31 := dividend.toInt_lt
  rw [predecrement, hbit]
  by_cases h : dividend.toInt < 0
  · rw [if_pos (by simpa using h), if_pos h, toInt_sub]
    exact Int.bmod_eq_of_le (by simp; omega) (by simp; omega)
  · rw [if_neg (by simpa using h), if_neg h]

/-- The end of the signed program: a quotient whose bit 16 is set is one too
low. -/
theorem toInt_div3216From {word : BitVec 32} {q : ℤ} (hlo : -2 ^ 15 ≤ q) (hhi : q < 2 ^ 15)
    (hword : (word.toNat : ℤ) % 2 ^ 17 = q % 2 ^ 17 ∧ 0 ≤ q ∨
      (word.toNat : ℤ) % 2 ^ 17 = (q - 1) % 2 ^ 17 ∧ q ≤ 0) :
    ((if word.getLsbD 16 then word + 1 else word).extractLsb' 0 16).toInt = q := by
  have hbit : word.getLsbD 16 = decide (2 ^ 16 ≤ word.toNat % 2 ^ 17) := by
    rw [← testBit_toNat, Nat.testBit_eq_decide_div_mod_eq, decide_eq_decide]
    omega
  have hone : (word + 1).toNat = (word.toNat + 1) % 2 ^ 32 := toNat_add _ _
  have hsum : (if word.getLsbD 16 then word + 1 else word).toNat % 2 ^ 16 =
      (word.toNat + if 2 ^ 16 ≤ word.toNat % 2 ^ 17 then 1 else 0) % 2 ^ 16 := by
    rw [hbit]
    by_cases h : 2 ^ 16 ≤ word.toNat % 2 ^ 17
    · rw [if_pos (by simpa using h), if_pos h, hone]
      omega
    · rw [if_neg (by simpa using h), if_neg h]
      rfl
  rw [toInt_eq_toNat_cond, extractLsb'_toNat, Nat.shiftRight_zero, hsum]
  rcases hword with ⟨hword, hq⟩ | ⟨hword, hq⟩
  · rw [if_neg (by omega : ¬2 ^ 16 ≤ word.toNat % 2 ^ 17)]
    split_ifs <;> push_cast <;> omega
  · rw [if_pos (by omega : 2 ^ 16 ≤ word.toNat % 2 ^ 17)]
    split_ifs <;> push_cast <;> omega

/-- The remainder that a signed value starts with. -/
theorem remainder_eq_toInt (h : sr.q = value.msb) : remainder value sr = value.toInt := by
  rw [remainder, h, toInt_eq_msb_cond]
  cases value.msb <;> simp

/-- The signed program, from flags as `DIV0S` leaves them. -/
theorem toInt_div3216From_predecrement (dividend : BitVec 32) (nonzero : divisor ≠ 0#16)
    (fits : -2 ^ 15 ≤ dividend.toInt.tdiv divisor.toInt ∧
      dividend.toInt.tdiv divisor.toInt < 2 ^ 15)
    (hm : sr.m = divisor.msb) (hq : sr.q = (predecrement dividend).msb)
    (ht : sr.t = (sr.q ^^ sr.m)) :
    (div3216From sr (predecrement dividend) divisor).toInt =
      dividend.toInt.tdiv divisor.toInt := by
  obtain ⟨hpos, hdivisor⟩ := divisorSize16_eq divisor nonzero
  have hsize : divisorSize16 divisor divisor.msb ≤ 2 ^ 15 := by
    have hlo : -2 ^ 15 ≤ divisor.toInt := divisor.le_toInt
    have hhi : divisor.toInt < 2 ^ 15 := divisor.toInt_lt
    split at hdivisor <;> omega
  have hfloor := tdiv_eq_floor dividend.toInt hpos
  have hrem := remainder_eq_toInt sr (predecrement dividend) hq
  have hsign := signDigit_remainder (predecrement dividend) sr
  rw [← hm] at hpos hdivisor hsize hfloor
  generalize he : divisorSize16 divisor sr.m = e at hpos hdivisor hsize hfloor
  have hquot : dividend.toInt.tdiv divisor.toInt =
      if sr.m then -dividend.toInt.tdiv e else dividend.toInt.tdiv e := by
    rw [hdivisor]
    split_ifs
    · exact Int.tdiv_neg _ _
    · rfl
  -- `f` is the floor that the signs make, one less than the quotient below zero
  have hbounds : InBounds (2 ^ 16 * e) (if dividend.toInt < 0 then dividend.toInt - 1
      else dividend.toInt) ∧ -2 ^ 31 < dividend.toInt ∧
      (dividend.toInt < 0 → dividend.toInt.tdiv e ≤ 0) ∧
      (0 ≤ dividend.toInt → 0 ≤ dividend.toInt.tdiv e) := by
    have hp : -2 ^ 15 ≤ dividend.toInt.tdiv e ∧ dividend.toInt.tdiv e ≤ 2 ^ 15 := by
      rw [hquot] at fits
      split at fits <;> omega
    by_cases hneg : dividend.toInt < 0
    · rw [if_pos hneg] at hfloor ⊢
      have hlo := (Int.le_ediv_iff_mul_le (a := -2 ^ 15 - 1) (b := dividend.toInt - 1) hpos).mp
        (by omega)
      have hhi := (Int.ediv_lt_iff_lt_mul (a := dividend.toInt - 1) (b := 0) hpos).mpr (by omega)
      refine ⟨⟨by omega, by omega⟩, by omega, by omega, by omega⟩
    · rw [if_neg hneg] at hfloor ⊢
      have hlo := Int.ediv_nonneg (a := dividend.toInt) (by omega) hpos.le
      have hhi := (Int.ediv_lt_iff_lt_mul (a := dividend.toInt) (b := 2 ^ 15 + 1) hpos).mp (by omega)
      refine ⟨⟨by omega, by omega⟩, by omega, by omega, by omega⟩
  obtain ⟨hstart, hroom, hnonpos, hnonneg⟩ := hbounds
  rw [toInt_predecrement dividend hroom] at hrem
  rw [← hrem, ← he] at hstart
  have hword := toNat_div3216Loop sr (predecrement dividend) divisor hstart
  have hdigits := digits_digit3216 sr (predecrement dividend) divisor hstart ht
  rw [hdigits, hrem, he] at hword
  refine toInt_div3216From fits.1 fits.2 ?_
  rw [hquot]
  by_cases hneg : dividend.toInt < 0
  · rw [if_pos hneg] at hword hfloor
    rw [signDigit_of_neg (by omega)] at hword
    cases hsign : sr.m
    · right
      rw [hsign] at hword
      simp only [Bool.false_eq_true, if_false] at hword ⊢
      omega
    · left
      rw [hsign] at hword
      simp only [if_true] at hword ⊢
      rw [hsign] at hquot
      simp only [if_true] at hquot
      omega
  · rw [if_neg hneg] at hword hfloor
    rw [signDigit_of_nonneg (by omega)] at hword
    cases hsign : sr.m
    · left
      rw [hsign] at hword hquot
      simp only [Bool.false_eq_true, if_false] at hword hquot ⊢
      omega
    · right
      rw [hsign] at hword hquot
      simp only [if_true] at hword hquot ⊢
      omega

theorem div3216From_flip : div3216From (flip sr) value divisor = div3216From sr value divisor := by
  rw [div3216From, div3216From, div3216Loop_flip]

theorem msb_append_zero : (divisor ++ 0#16).getLsbD 31 = divisor.msb := by
  rw [msb_eq_getLsbD_last, getLsbD_append]
  rfl

/-- The order of the operands of `DIV0S` does not matter to the program. -/
theorem div3216sTap_eq (dividend : BitVec 32) :
    div3216sTap dividend divisor sr = div3216s dividend divisor sr := by
  rw [div3216sTap, div3216s]
  have hswap : div0s (divisor ++ 0#16) (predecrement dividend) sr =
        div0s (predecrement dividend) (divisor ++ 0#16) sr ∨
      div0s (divisor ++ 0#16) (predecrement dividend) sr =
        flip (div0s (predecrement dividend) (divisor ++ 0#16) sr) := by
    simp only [div0s, arithUpdateSr, flip, Sr.mk.injEq]
    cases (divisor ++ 0#16).getLsbD 31 <;> cases (predecrement dividend).getLsbD 31 <;> simp
  rcases hswap with h | h
  · simp only [h]
  · simp only [h, div3216From_flip]

/-- The signed program leaves the quotient, rounded towards zero, if it fits. -/
theorem div3216s_eq (dividend : BitVec 32) (nonzero : divisor ≠ 0#16)
    (fits : -2 ^ 15 ≤ dividend.toInt.tdiv divisor.toInt ∧
      dividend.toInt.tdiv divisor.toInt < 2 ^ 15) :
    (div3216s dividend divisor sr).toInt = dividend.toInt.tdiv divisor.toInt ∧
      (div3216sTap dividend divisor sr).toInt = dividend.toInt.tdiv divisor.toInt := by
  have h : (div3216s dividend divisor sr).toInt = dividend.toInt.tdiv divisor.toInt := by
    apply toInt_div3216From_predecrement _ divisor dividend nonzero fits
    · exact msb_append_zero divisor
    · exact (msb_eq_getLsbD_last _).symm
    · rfl
  rw [div3216sTap_eq]
  exact ⟨h, h⟩

/-- A negative exact multiple. -/
theorem div3216s_eq_exact :
    (div3216s 0xffff0000#32 0x0200#16 datapathReset.sr).toInt =
        (0xffff0000#32).toInt.tdiv (0x0200#16).toInt ∧
      (div3216sTap 0xffff0000#32 0x0200#16 datapathReset.sr).toInt =
        (0xffff0000#32).toInt.tdiv (0x0200#16).toInt :=
  div3216s_eq datapathReset.sr 0x0200#16 0xffff0000#32 (by decide) (by decide)

end Div3216

/-! ### 64 by 32 bits -/

section Div6432

variable (high low divisor : BitVec 32)

/-- The states of the loop. -/
def div6432State (k : ℕ) : DivState :=
  (div6432Step divisor)^[k] { high := high, low := low, sr := sr }

theorem div6432State_succ (k : ℕ) :
    div6432State sr high low divisor (k + 1) =
      div6432Step divisor (div6432State sr high low divisor k) :=
  Function.iterate_succ_apply' _ _ _

/-- The remainder of both words. -/
def remainder64 (state : DivState) : ℤ := 2 ^ 32 * remainder state.high state.sr + state.low.toNat

theorem remainder64_nonneg_iff (state : DivState) :
    0 ≤ remainder64 state ↔ 0 ≤ remainder state.high state.sr := by
  have h : state.low.toNat < 2 ^ 32 := state.low.isLt
  rw [remainder64]
  omega

theorem div6432Step_m (state : DivState) : (div6432Step divisor state).sr.m = state.sr.m := rfl

/-- A round of the loop is a step of the division by the divisor in the high
word. -/
theorem div6432Step_next (state : DivState)
    (bounds : InBounds (2 ^ 32 * divisorSize divisor state.sr.m) (remainder64 state)) :
    remainder64 (div6432Step divisor state) =
      next (2 ^ 32 * divisorSize divisor state.sr.m) (remainder64 state) state.sr.t.toNat := by
  have hlow : state.low.toNat < 2 ^ 32 := state.low.isLt
  have hinner : InBounds (divisorSize divisor (rotcl state.low state.sr).2.m)
      (remainder state.high (rotcl state.low state.sr).2) := by
    show InBounds (divisorSize divisor state.sr.m) (remainder state.high state.sr)
    obtain ⟨hlo, hhi⟩ := bounds
    rw [remainder64] at hlo hhi
    constructor <;> omega
  have hdiv := div1_next state.high divisor (rotcl state.low state.sr).2 hinner
  have hrot := toNat_shifted state.low state.sr
  rw [← rotcl_eq] at hrot
  have hsign := remainder64_nonneg_iff state
  have hnext : remainder64 (div6432Step divisor state) =
      2 ^ 32 * remainder (div1 state.high divisor (rotcl state.low state.sr).2).1
        (div1 state.high divisor (rotcl state.low state.sr).2).2 + (rotcl state.low state.sr).1.toNat :=
    rfl
  have hbit : ((rotcl state.low state.sr).2.t.toNat : ℤ) = (state.low.getLsbD 31).toNat := rfl
  have hm : (rotcl state.low state.sr).2.m = state.sr.m := rfl
  have hr : remainder state.high (rotcl state.low state.sr).2 = remainder state.high state.sr := rfl
  rw [hnext, hdiv, hbit, hm, hr, next, next, remainder64]
  rw [remainder64] at hsign
  simp only [hsign]
  split_ifs <;> omega

theorem div6432State_m (k : ℕ) : (div6432State sr high low divisor k).sr.m = sr.m := by
  induction k with
  | zero => rfl
  | succ k ih => rw [div6432State_succ, div6432Step_m, ih]

/-- The loop is a division of both words. -/
theorem divides6432
    (start : InBounds (2 ^ 32 * divisorSize divisor sr.m) (remainder64 ⟨high, low, sr⟩)) :
    Divides (2 ^ 32 * divisorSize divisor sr.m)
      (fun k => remainder64 (div6432State sr high low divisor k))
      (fun k => (div6432State sr high low divisor k).sr.t.toNat) := by
  have hdigit (k : ℕ) : ((div6432State sr high low divisor k).sr.t.toNat : ℤ) = 0 ∨
      ((div6432State sr high low divisor k).sr.t.toNat : ℤ) = 1 := by
    cases (div6432State sr high low divisor k).sr.t <;> simp
  have hnext (k : ℕ) (bounds : InBounds (2 ^ 32 * divisorSize divisor sr.m)
      (remainder64 (div6432State sr high low divisor k))) :
      remainder64 (div6432State sr high low divisor (k + 1)) =
        next (2 ^ 32 * divisorSize divisor sr.m) (remainder64 (div6432State sr high low divisor k))
          (div6432State sr high low divisor k).sr.t.toNat := by
    rw [div6432State_succ]
    rw [← div6432State_m sr high low divisor k] at bounds ⊢
    exact div6432Step_next divisor _ bounds
  have bounds (k : ℕ) : InBounds (2 ^ 32 * divisorSize divisor sr.m)
      (remainder64 (div6432State sr high low divisor k)) := by
    induction k with
    | zero => exact start
    | succ k ih =>
      rw [hnext k ih]
      exact ih.next (hdigit k)
  exact ⟨start, hdigit, fun k => hnext k (bounds k)⟩

/-- From the first round on T is the sign of the remainder. -/
theorem div6432State_t (hm : sr.m = false) (k : ℕ) :
    ((div6432State sr high low divisor (k + 1)).sr.t.toNat : ℤ) =
      signDigit (remainder64 (div6432State sr high low divisor (k + 1))) := by
  have hm' : (rotcl (div6432State sr high low divisor k).low
      (div6432State sr high low divisor k).sr).2.m = false :=
    (div6432State_m sr high low divisor k).trans hm
  have ht := div1_t_toNat (div6432State sr high low divisor k).high divisor
    (rotcl (div6432State sr high low divisor k).low (div6432State sr high low divisor k).sr).2
  rw [hm', if_neg (by decide)] at ht
  rw [div6432State_succ, signDigit]
  simp only [remainder64_nonneg_iff]
  exact ht

/-- The unsigned program leaves the quotient if it fits. -/
theorem div6432u_eq (nonzero : divisor ≠ 0#32)
    (fits : (high ++ low).toNat / divisor.toNat < 2 ^ 32) :
    (div6432u high low divisor sr).toNat = (high ++ low).toNat / divisor.toNat := by
  have hpos : 0 < divisor.toNat := by
    rw [Nat.pos_iff_ne_zero]
    exact fun h => nonzero (eq_of_toNat_eq h)
  have hlt := (Nat.div_lt_iff_lt_mul hpos).mp fits
  have hsplit : (high ++ low).toNat = high.toNat * 2 ^ 32 + low.toNat := toNat_append_add high low
  have hsize : divisorSize divisor (div0u sr).m = divisor.toNat := by simp [divisorSize, div0u]
  have hrem : remainder64 ⟨high, low, div0u sr⟩ = (high ++ low).toNat := by
    rw [remainder64, remainder, hsplit]
    simp [div0u]
    ring
  -- the dividend is within the bounds of the first step
  have start : InBounds (2 ^ 32 * divisorSize divisor (div0u sr).m)
      (remainder64 ⟨high, low, div0u sr⟩) := by
    rw [hrem, hsize, InBounds]
    omega
  have h := divides6432 (div0u sr) high low divisor start
  have hdiv := h.quotient_eq_div_start
  have hlow := h.remainder_emod
  have hfirst : signDigit (remainder64 (div6432State (div0u sr) high low divisor 0)) = 1 := by
    apply signDigit_of_nonneg
    show 0 ≤ remainder64 ⟨high, low, div0u sr⟩
    omega
  -- the quotient bits are made from the signs of the remainders
  have hdigits := digits_of_signs
    (z := fun k => remainder64 (div6432State (div0u sr) high low divisor k))
    (t := fun k => ((div6432State (div0u sr) high low divisor k).sr.t.toNat : ℤ))
    (by simp only [hfirst]; rfl) (fun k => div6432State_t (div0u sr) high low divisor rfl k) 32
  have hzero : remainder64 (div6432State (div0u sr) high low divisor 0) = (high ++ low).toNat := hrem
  -- the last rotation brings in the last bit
  have hword : div6432u high low divisor sr =
      (rotcl (div6432State (div0u sr) high low divisor 32).low
        (div6432State (div0u sr) high low divisor 32).sr).1 := rfl
  have hcast : (((high ++ low).toNat / divisor.toNat : ℕ) : ℤ) =
      ((high ++ low).toNat : ℤ) / divisor.toNat := Int.natCast_ediv _ _
  rw [hzero] at hfirst
  simp only [hdiv, hzero, hfirst, hsize, ← hcast] at hdigits
  rw [digits, ← hlow, remainder64] at hdigits
  rw [hword, toNat_rotcl]
  omega

end Div6432

/-- The unsigned programs leave the quotient if it fits in their word. -/
theorem unsigned_programs :
    (∀ (high low divisor : BitVec 32) (sr : Sr), divisor ≠ 0#32 →
      (high ++ low).toNat / divisor.toNat < 2 ^ 32 →
      (div6432u high low divisor sr).toNat = (high ++ low).toNat / divisor.toNat) ∧
    (∀ (dividend : BitVec 32) (divisor : BitVec 16) (sr : Sr), divisor ≠ 0#16 →
      dividend.toNat / divisor.toNat < 2 ^ 16 →
      (div3216u dividend divisor sr).toNat = dividend.toNat / divisor.toNat) :=
  ⟨fun high low divisor sr => div6432u_eq sr high low divisor,
    fun dividend divisor sr => div3216u_eq sr divisor dividend⟩

/-- Two examples of the divider's test. -/
theorem unsigned_programs_tap :
    (div6432u 0x0b00ea4e#32 0x242d2080#32 0x9abcdef0#32 datapathReset.sr).toNat =
        (0x0b00ea4e#32 ++ 0x242d2080#32).toNat / (0x9abcdef0#32).toNat ∧
      (div3216u 0x9fffffff#32 0xabcd#16 datapathReset.sr).toNat =
        (0x9fffffff#32).toNat / (0xabcd#16).toNat :=
  ⟨unsigned_programs.1 0x0b00ea4e#32 0x242d2080#32 0x9abcdef0#32 datapathReset.sr (by decide)
      (by decide),
    unsigned_programs.2 0x9fffffff#32 0xabcd#16 datapathReset.sr (by decide) (by decide)⟩

end JCore
