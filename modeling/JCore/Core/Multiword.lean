import JCore.Core.Division
import JCore.Lib.Limbs

/-!
# Arithmetic on numbers of many words

`ADDC`, `SUBC` and `NEGC` take T as their carry in and leave their carry or borrow in T. On
the words of two numbers, from the least significant on, they make up a sum or a difference
of the numbers.

## Main definitions

* `addc`, `subc`, `negc`: the instructions on operands and SR
* `words`: the number that a list of words stands for

## Main results

* `zbus_nextSr_addc`, `zbus_nextSr_subc`, `zbus_nextSr_negc`: the instructions in the datapath
* `nextSr_arith`: the flags of the comparisons in the datapath
* `multiword`: the instructions on the words of two numbers
-/

namespace JCore

open BitVec

/-! ### The instructions -/

/-- An operation of the arithmetic unit with T as its carry in and out. -/
def arithCarry (func : ArithFunc) (a b : BitVec 32) (sr : Sr) : BitVec 32 × Sr :=
  let out := arithUnit a b func sr.t
  (out.extractLsb' 0 32, { sr with t := out.getLsbD 32 })

/-- `ADDC` of `y` to `x`. -/
def addc (x y : BitVec 32) (sr : Sr) : BitVec 32 × Sr := arithCarry .add x y sr

/-- `SUBC` of `y` from `x`. -/
def subc (x y : BitVec 32) (sr : Sr) : BitVec 32 × Sr := arithCarry .sub x y sr

/-- `NEGC` of `y`. -/
def negc (y : BitVec 32) (sr : Sr) : BitVec 32 × Sr := arithCarry .sub 0 y sr

theorem toNat_addc (x y : BitVec 32) (sr : Sr) :
    (addc x y sr).1.toNat + 2 ^ 32 * (addc x y sr).2.t.toNat = x.toNat + y.toNat + sr.t.toNat :=
  toNat_arithUnit_add x y sr.t

theorem toNat_subc (x y : BitVec 32) (sr : Sr) :
    (subc x y sr).1.toNat + y.toNat + sr.t.toNat = x.toNat + 2 ^ 32 * (subc x y sr).2.t.toNat :=
  toNat_arithUnit_sub x y sr.t

theorem toNat_negc (y : BitVec 32) (sr : Sr) :
    (negc y sr).1.toNat + y.toNat + sr.t.toNat = 2 ^ 32 * (negc y sr).2.t.toNat :=
  (toNat_subc 0 y sr).trans (Nat.zero_add _)

section Instructions

variable (s : Datapath.State) {ctrl : StageCtrl} (i : DatapathI)

/-- A line that adds or subtracts with T as its carry in and out. -/
theorem zbus_nextSr_arithCarry {line : BitVec 75} (h : Executes ctrl line)
    (inxSel : DecodeTable.aluinxSel line = .selXbus)
    (inySel : DecodeTable.aluinySel line = .selYbus) (ciEn : DecodeTable.arithCiEn line = true)
    (arithSr : DecodeTable.arithSrFunc line ≠ .div1) (zSel : DecodeTable.zbusSel line = .selArith)
    (srSel : DecodeTable.srSel line = .selSetT) (tSel : DecodeTable.tSel line = .selCarry) :
    (Datapath.zbus s.this s.regs ctrl i,
        Datapath.nextSr ctrl (Datapath.processI s ctrl i) s.this.sr) =
      arithCarry (DecodeTable.arithFunc line) (Datapath.xbus s.this s.regs ctrl)
        (Datapath.ybus s.this s.regs ctrl i) s.this.sr := by
  have hfunc : Datapath.arithFunc s.this ctrl = DecodeTable.arithFunc line := by
    rw [Datapath.arithFunc, h.arithSr, if_neg arithSr, h.arithFunc]
  have hout : Datapath.arithOut s.this s.regs ctrl i =
      arithUnit (Datapath.xbus s.this s.regs ctrl) (Datapath.ybus s.this s.regs ctrl i)
        (DecodeTable.arithFunc line) s.this.sr.t := by
    simp only [Datapath.arithOut, Datapath.aluinx, Datapath.aluiny, h.inxSel, h.inySel, h.ciEn,
      inxSel, inySel, ciEn, hfunc, Bool.true_and]
  rw [Datapath.zbus, h.zSel, zSel, Datapath.nextSr, h.srSel, srSel, h.tSel, tSel]
  simp only [Datapath.processI, hout]
  rfl

/-- `ADDC` in the datapath. -/
theorem zbus_nextSr_addc (h : Executes ctrl (microcodeLine 89)) :
    (Datapath.zbus s.this s.regs ctrl i,
        Datapath.nextSr ctrl (Datapath.processI s ctrl i) s.this.sr) =
      addc (Datapath.xbus s.this s.regs ctrl) (Datapath.ybus s.this s.regs ctrl i) s.this.sr := by
  have hfunc : DecodeTable.arithFunc (microcodeLine 89) = .add := by decide +kernel
  rw [addc, ← hfunc]
  apply zbus_nextSr_arithCarry s i h <;> decide +kernel

/-- `SUBC` in the datapath. -/
theorem zbus_nextSr_subc (h : Executes ctrl (microcodeLine 119)) :
    (Datapath.zbus s.this s.regs ctrl i,
        Datapath.nextSr ctrl (Datapath.processI s ctrl i) s.this.sr) =
      subc (Datapath.xbus s.this s.regs ctrl) (Datapath.ybus s.this s.regs ctrl i) s.this.sr := by
  have hfunc : DecodeTable.arithFunc (microcodeLine 119) = .sub := by decide +kernel
  rw [subc, ← hfunc]
  apply zbus_nextSr_arithCarry s i h <;> decide +kernel

/-- The constant of `NEGC`. -/
theorem immVal_negc (code : BitVec 16) : DecodeTable.immVal (microcodeLine 115) code = 0 := by
  have hsel : (microcodeLine 115).extractLsb 59 55 = 0b00001 := by decide +kernel
  rw [DecodeTable.immVal, hsel]
  rfl

/-- `NEGC` in the datapath: its first operand is the line's constant. -/
theorem zbus_nextSr_negc (h : Executes ctrl (microcodeLine 115)) (code : BitVec 16)
    (xSel : ctrl.buses.xSel = DecodeTable.xbusSel (microcodeLine 115))
    (immVal : ctrl.buses.immVal = DecodeTable.immVal (microcodeLine 115) code) :
    (Datapath.zbus s.this s.regs ctrl i,
        Datapath.nextSr ctrl (Datapath.processI s ctrl i) s.this.sr) =
      negc (Datapath.ybus s.this s.regs ctrl i) s.this.sr := by
  have hfunc : DecodeTable.arithFunc (microcodeLine 115) = .sub := by decide +kernel
  have himm : DecodeTable.xbusSel (microcodeLine 115) = .selImm := by decide +kernel
  have hzero : Datapath.xbus s.this s.regs ctrl = 0 := by
    rw [Datapath.xbus, xSel, himm]
    exact immVal.trans (immVal_negc code)
  rw [negc, ← hfunc, ← hzero]
  apply zbus_nextSr_arithCarry s i h <;> decide +kernel

/-- The flags that a line of the arithmetic unit leaves in the datapath. -/
theorem nextSr_arith {line : BitVec 75} (h : Executes ctrl line)
    (inxSel : DecodeTable.aluinxSel line = .selXbus)
    (inySel : DecodeTable.aluinySel line = .selYbus) (ciEn : DecodeTable.arithCiEn line = false)
    (arithSr : DecodeTable.arithSrFunc line ≠ .div1) (srSel : DecodeTable.srSel line = .selArith) :
    (Datapath.nextSr ctrl (Datapath.processI s ctrl i) s.this.sr).t =
      arithT (DecodeTable.arithFunc line) (DecodeTable.arithSrFunc line) s.this.sr
        (Datapath.xbus s.this s.regs ctrl) (Datapath.ybus s.this s.regs ctrl i) := by
  have hfunc : Datapath.arithFunc s.this ctrl = DecodeTable.arithFunc line := by
    rw [Datapath.arithFunc, h.arithSr, if_neg arithSr, h.arithFunc]
  have hout : Datapath.arithOut s.this s.regs ctrl i =
      arithUnit (Datapath.xbus s.this s.regs ctrl) (Datapath.ybus s.this s.regs ctrl i)
        (DecodeTable.arithFunc line) false := by
    simp only [Datapath.arithOut, Datapath.aluinx, Datapath.aluiny, h.inxSel, h.inySel, h.ciEn,
      inxSel, inySel, ciEn, hfunc, Bool.false_and]
  rw [Datapath.nextSr, h.srSel, srSel, arithT]
  simp only [Datapath.processI, hout, hfunc, h.arithSr]
  rw [msb_eq_getLsbD_last, msb_eq_getLsbD_last]

/-- The lines with a comparison or an overflow leave it in T: `CMP/PL`, `CMP/PZ`, `ADDV`,
`CMP/HS`, `CMP/GE`, `CMP/HI`, `CMP/GT` and `SUBV`. -/
theorem nextSr_flags (line : BitVec 8) (hline : line ∈ [16#8, 17, 90, 93, 94, 95, 96, 120])
    (h : Executes ctrl (microcodeLine line)) :
    (Datapath.nextSr ctrl (Datapath.processI s ctrl i) s.this.sr).t =
      arithT (DecodeTable.arithFunc (microcodeLine line))
        (DecodeTable.arithSrFunc (microcodeLine line)) s.this.sr
        (Datapath.xbus s.this s.regs ctrl) (Datapath.ybus s.this s.regs ctrl i) := by
  simp only [List.mem_cons, List.not_mem_nil, or_false] at hline
  rcases hline with rfl | rfl | rfl | rfl | rfl | rfl | rfl | rfl <;>
    apply nextSr_arith s i h <;> decide +kernel

end Instructions

/-! ### The words of a number -/

/-- The number that a list of words stands for, the least significant word first. -/
def words (l : List (BitVec 32)) : ℤ := Limbs.value (2 ^ 32) (l.map fun w => (w.toNat : ℤ))

theorem words_map {α : Type*} (f : α → BitVec 32) (l : List α) :
    Limbs.value (2 ^ 32) (l.map fun a => ((f a).toNat : ℤ)) = words (l.map f) := by
  rw [words, List.map_map]
  rfl

theorem words_bounds (l : List (BitVec 32)) : 0 ≤ words l ∧ words l < (2 ^ 32) ^ l.length := by
  have bounds := Limbs.value_bounds (2 ^ 32) (l.map fun w => (w.toNat : ℤ)) <| by
    intro d hd
    obtain ⟨w, -, rfl⟩ := List.mem_map.mp hd
    have hw := w.isLt
    omega
  rwa [List.length_map] at bounds

/-- The words that a program leaves, and its last T: a number of as many words. -/
theorem words_chain {α : Type*} (instr : α → Sr → BitVec 32 × Sr) (digit : α → ℤ) (sign : ℤ)
    (exact_step : ∀ a sr, ((instr a sr).1.toNat : ℤ) + 2 ^ 32 * (sign * (instr a sr).2.t.toNat) =
      digit a + sign * sr.t.toNat) (l : List α) (sr : Sr) :
    words (Limbs.chain instr l sr).1 +
        (2 ^ 32) ^ l.length * (sign * (Limbs.chain instr l sr).2.t.toNat) =
      Limbs.value (2 ^ 32) (l.map digit) + sign * sr.t.toNat :=
  Limbs.value_chain (2 ^ 32) (fun sr : Sr => (sr.t.toNat : ℤ)) exact_step l sr

theorem words_chain_bounds {α : Type*} (instr : α → Sr → BitVec 32 × Sr) (l : List α) (sr : Sr) :
    0 ≤ words (Limbs.chain instr l sr).1 ∧
      words (Limbs.chain instr l sr).1 < (2 ^ 32) ^ l.length := by
  have bounds := words_bounds (Limbs.chain instr l sr).1
  rwa [Limbs.length_chain] at bounds

/-- `ADDC` on the words of two numbers. -/
theorem addc_chain (xys : List (BitVec 32 × BitVec 32)) (sr : Sr) :
    let out := Limbs.chain (fun xy sr => addc xy.1 xy.2 sr) xys sr
    let total := words (xys.map Prod.fst) + words (xys.map Prod.snd) + sr.t.toNat
    words out.1 = total % (2 ^ 32) ^ xys.length ∧
      out.2.t = decide ((2 ^ 32) ^ xys.length ≤ total) := by
  intro out total
  have steps := words_chain (fun xy sr => addc xy.1 xy.2 sr)
    (fun xy : BitVec 32 × BitVec 32 => (xy.1.toNat : ℤ) + xy.2.toNat) 1
    (fun xy sr => by
      have exact_sum := toNat_addc xy.1 xy.2 sr
      omega) xys sr
  rw [Limbs.value_map_add, words_map, words_map, one_mul, one_mul] at steps
  exact Limbs.carry_of_value (words_chain_bounds _ xys sr) steps

/-- `SUBC` on the words of two numbers. -/
theorem subc_chain (xys : List (BitVec 32 × BitVec 32)) (sr : Sr) :
    let out := Limbs.chain (fun xy sr => subc xy.1 xy.2 sr) xys sr
    let total := words (xys.map Prod.fst) - words (xys.map Prod.snd) - sr.t.toNat
    words out.1 = total % (2 ^ 32) ^ xys.length ∧ out.2.t = decide (total < 0) := by
  intro out total
  have steps := words_chain (fun xy sr => subc xy.1 xy.2 sr)
    (fun xy : BitVec 32 × BitVec 32 => (xy.1.toNat : ℤ) + -(xy.2.toNat : ℤ)) (-1)
    (fun xy sr => by
      have exact_difference := toNat_subc xy.1 xy.2 sr
      omega) xys sr
  rw [Limbs.value_map_add, Limbs.value_map_neg, words_map, words_map] at steps
  refine Limbs.borrow_of_value (words_chain_bounds _ xys sr) ?_
  linear_combination steps

/-- `NEGC` on the words of a number. -/
theorem negc_chain (ys : List (BitVec 32)) (sr : Sr) :
    let out := Limbs.chain negc ys sr
    let total := -words ys - sr.t.toNat
    words out.1 = total % (2 ^ 32) ^ ys.length ∧ out.2.t = decide (total < 0) := by
  intro out total
  have steps := words_chain negc (fun y => -(y.toNat : ℤ)) (-1)
    (fun y sr => by
      have exact_difference := toNat_negc y sr
      omega) ys sr
  rw [Limbs.value_map_neg] at steps
  refine Limbs.borrow_of_value (words_chain_bounds _ ys sr) ?_
  change words out.1 - (2 ^ 32) ^ ys.length * (out.2.t.toNat : ℤ) = -words ys - sr.t.toNat
  rw [show words ys = Limbs.value (2 ^ 32) (ys.map fun y => (y.toNat : ℤ)) from rfl]
  linear_combination steps

/-- On the words of two numbers the instructions make up the sum, the difference and the
negative, and leave the carry or the borrow in T. -/
theorem multiword (xys : List (BitVec 32 × BitVec 32)) (sr : Sr) :
    let x := words (xys.map Prod.fst)
    let y := words (xys.map Prod.snd)
    let size := (2 ^ 32 : ℤ) ^ xys.length
    let add := Limbs.chain (fun xy sr => addc xy.1 xy.2 sr) xys sr
    let sub := Limbs.chain (fun xy sr => subc xy.1 xy.2 sr) xys sr
    let neg := Limbs.chain negc (xys.map Prod.snd) sr
    (words add.1 = (x + y + sr.t.toNat) % size ∧ add.2.t = decide (size ≤ x + y + sr.t.toNat)) ∧
      (words sub.1 = (x - y - sr.t.toNat) % size ∧ sub.2.t = decide (x < y + sr.t.toNat)) ∧
      (words neg.1 = (-y - sr.t.toNat) % size ∧ neg.2.t = decide (0 < y + sr.t.toNat)) ∧
      add.1.length = xys.length ∧ sub.1.length = xys.length ∧ neg.1.length = xys.length := by
  intro x y size add sub neg
  have sum := addc_chain xys sr
  have difference := subc_chain xys sr
  have negative := negc_chain (xys.map Prod.snd) sr
  rw [List.length_map] at negative
  have borrow : (x - y - sr.t.toNat < 0) = (x < y + sr.t.toNat) := by
    apply propext
    omega
  have below : (-y - sr.t.toNat < 0) = (0 < y + sr.t.toNat) := by
    apply propext
    omega
  refine ⟨sum, ⟨difference.1, ?_⟩, ⟨negative.1, ?_⟩, Limbs.length_chain .., Limbs.length_chain ..,
    (Limbs.length_chain ..).trans (List.length_map ..)⟩
  · rw [← decide_eq_decide.mpr (iff_of_eq borrow)]
    exact difference.2
  · rw [← decide_eq_decide.mpr (iff_of_eq below)]
    exact negative.2

end JCore
