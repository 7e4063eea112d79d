import JCore.Core.Multiword
import JCore.Isa.Line
import JCore.Isa.Units

/-!
# Register instructions

The instructions that work on registers and SR alone: what they compute, in the
arithmetic of 32-bit words, and the line of microcode that each of them has.

## Main definitions

* `RegInstr`, `RegInstr.ofCode`: the instructions, and the words that stand for them
* `RegInstr.exec`: what an instruction makes of the registers and of SR
* `RegInstr.line`: the fields of its microcode line

## Main results

* `RegInstr.computes`: the line computes what the instruction is to compute
-/

namespace JCore

open DecodeTable

/-- The instructions on registers. -/
inductive RegInstr where
  | clrt | nop | sett | div0u
  | stcSr | stcGbr | stcVbr | movt | stsPr
  | div0s | tst | and | xor | or | cmpStr | xtrct
  | cmpEq | cmpHs | cmpGe | div1 | cmpHi | cmpGt | sub | subc | subv | add | addc | addv
  | shll | shlr | rotl | rotr | shal | shar | rotcl | rotcr
  | shll2 | shlr2 | shll8 | shlr8 | shll16 | shlr16
  | dt | cmpPz | cmpPl
  | ldcSr | ldcGbr | ldcVbr | ldsPr
  | shad | shld
  | mov | not | swapB | swapW | negc | neg | extuB | extuW | extsB | extsW
  | addI | cmpEqI | mova | tstI | andI | xorI | orI | movI
  deriving DecidableEq, Repr

/-- The register that a word names in its third digit. -/
def regM (code : BitVec 16) : Regnum := 0#1 ++ code.extractLsb 7 4

/-- The low byte of a word, without a sign. -/
def immU8 (code : BitVec 16) : BitVec 32 := 0#24 ++ code.extractLsb 7 0

namespace RegInstr

def ofCode (code : BitVec 16) : Option RegInstr :=
  match codeGroup code with
  | 0x0 =>
    match codeLow code with
    | 0x08 => if codeHigh code == 0 then some clrt else none
    | 0x09 => if codeHigh code == 0 then some nop else none
    | 0x18 => if codeHigh code == 0 then some sett else none
    | 0x19 => if codeHigh code == 0 then some div0u else none
    | 0x02 => some stcSr
    | 0x12 => some stcGbr
    | 0x22 => some stcVbr
    | 0x29 => some movt
    | 0x2a => some stsPr
    | _ => none
  | 0x2 =>
    match (codeLow code).extractLsb 3 0 with
    | 0x7 => some div0s
    | 0x8 => some tst
    | 0x9 => some and
    | 0xa => some xor
    | 0xb => some or
    | 0xc => some cmpStr
    | 0xd => some xtrct
    | _ => none
  | 0x3 =>
    match (codeLow code).extractLsb 3 0 with
    | 0x0 => some cmpEq
    | 0x2 => some cmpHs
    | 0x3 => some cmpGe
    | 0x4 => some div1
    | 0x6 => some cmpHi
    | 0x7 => some cmpGt
    | 0x8 => some sub
    | 0xa => some subc
    | 0xb => some subv
    | 0xc => some add
    | 0xe => some addc
    | 0xf => some addv
    | _ => none
  | 0x4 =>
    match (codeLow code).extractLsb 3 0 with
    | 0xc => some shad
    | 0xd => some shld
    | _ =>
      match codeLow code with
      | 0x00 => some shll
      | 0x01 => some shlr
      | 0x04 => some rotl
      | 0x05 => some rotr
      | 0x08 => some shll2
      | 0x09 => some shlr2
      | 0x0e => some ldcSr
      | 0x10 => some dt
      | 0x11 => some cmpPz
      | 0x15 => some cmpPl
      | 0x18 => some shll8
      | 0x19 => some shlr8
      | 0x1e => some ldcGbr
      | 0x20 => some shal
      | 0x21 => some shar
      | 0x24 => some rotcl
      | 0x25 => some rotcr
      | 0x28 => some shll16
      | 0x29 => some shlr16
      | 0x2a => some ldsPr
      | 0x2e => some ldcVbr
      | _ => none
  | 0x6 =>
    match (codeLow code).extractLsb 3 0 with
    | 0x3 => some mov
    | 0x7 => some not
    | 0x8 => some swapB
    | 0x9 => some swapW
    | 0xa => some negc
    | 0xb => some neg
    | 0xc => some extuB
    | 0xd => some extuW
    | 0xe => some extsB
    | 0xf => some extsW
    | _ => none
  | 0x7 => some addI
  | 0x8 => if codeHigh code == 0x8 then some cmpEqI else none
  | 0xc =>
    match codeHigh code with
    | 0x7 => some mova
    | 0x8 => some tstI
    | 0x9 => some andI
    | 0xa => some xorI
    | 0xb => some orI
    | _ => none
  | 0xe => some movI
  | _ => none

/-! ### What they compute -/

/-- A shift by a register: to the left by its low five bits, or to the right by what is
missing from 32. -/
def shiftBy (left right : ℕ → BitVec 32) (y : BitVec 32) : BitVec 32 :=
  if y.msb then right (32 - y.toNat % 32) else left (y.toNat % 32)

/-- What the instruction `code` at a PC four bytes behind it writes, and SR after it. -/
def exec (instr : RegInstr) (code : BitVec 16) (pc : BitVec 32) (regs : Regs) (sr : Sr) :
    Option (Regnum × BitVec 32) × Sr :=
  let n := Branch.regN code
  let x := regs .a n
  let y := regs .b (regM code)
  let r0 := regs .a 0
  match instr with
  | clrt => (none, { sr with t := false })
  | nop => (none, sr)
  | sett => (none, { sr with t := true })
  | div0u => (none, JCore.div0u sr)
  | stcSr => (some (n, Datapath.srToSlv sr), sr)
  | stcGbr => (some (n, regs .b 0x10), sr)
  | stcVbr => (some (n, regs .b 0x11), sr)
  | movt => (some (n, if sr.t then 1 else 0), sr)
  | stsPr => (some (n, regs .b regPr), sr)
  | div0s => (none, { sr with q := x.msb, m := y.msb, t := x.msb ^^ y.msb })
  | tst => (none, { sr with t := x &&& y == 0 })
  | and => (some (n, x &&& y), sr)
  | xor => (some (n, x ^^^ y), sr)
  | or => (some (n, x ||| y), sr)
  | cmpStr => (none, { sr with t := (List.range 4).any fun k => byteAt x k == byteAt y k })
  | xtrct => (some (n, y.extractLsb' 0 16 ++ x.extractLsb' 16 16), sr)
  | cmpEq => (none, { sr with t := x == y })
  | cmpHs => (none, { sr with t := decide (y.toNat ≤ x.toNat) })
  | cmpGe => (none, { sr with t := decide (y.toInt ≤ x.toInt) })
  | div1 => (some (n, (JCore.div1 x y sr).1), (JCore.div1 x y sr).2)
  | cmpHi => (none, { sr with t := decide (y.toNat < x.toNat) })
  | cmpGt => (none, { sr with t := decide (y.toInt < x.toInt) })
  | sub => (some (n, x - y), sr)
  | subc =>
    (some (n, x - y - BitVec.ofNat 32 sr.t.toNat), { sr with t := x.toNat < y.toNat + sr.t.toNat })
  | subv =>
    (some (n, x - y),
      { sr with t := !decide (-2 ^ 31 ≤ x.toInt - y.toInt ∧ x.toInt - y.toInt < 2 ^ 31) })
  | add => (some (n, x + y), sr)
  | addc =>
    (some (n, x + y + BitVec.ofNat 32 sr.t.toNat),
      { sr with t := 2 ^ 32 ≤ x.toNat + y.toNat + sr.t.toNat })
  | addv =>
    (some (n, x + y),
      { sr with t := !decide (-2 ^ 31 ≤ x.toInt + y.toInt ∧ x.toInt + y.toInt < 2 ^ 31) })
  | shll | shal => (some (n, x <<< 1), { sr with t := x.msb })
  | shlr => (some (n, x >>> 1), { sr with t := x.getLsbD 0 })
  | shar => (some (n, x.sshiftRight 1), { sr with t := x.getLsbD 0 })
  | rotl => (some (n, x.rotateLeft 1), { sr with t := x.msb })
  | rotr => (some (n, x.rotateRight 1), { sr with t := x.getLsbD 0 })
  | rotcl => (some (n, x.extractLsb' 0 31 ++ BitVec.ofBool sr.t), { sr with t := x.msb })
  | rotcr => (some (n, BitVec.ofBool sr.t ++ x.extractLsb' 1 31), { sr with t := x.getLsbD 0 })
  | shll2 => (some (n, x <<< 2), sr)
  | shlr2 => (some (n, x >>> 2), sr)
  | shll8 => (some (n, x <<< 8), sr)
  | shlr8 => (some (n, x >>> 8), sr)
  | shll16 => (some (n, x <<< 16), sr)
  | shlr16 => (some (n, x >>> 16), sr)
  | dt => (some (n, x - 1), { sr with t := x - 1 == 0 })
  | cmpPz => (none, { sr with t := decide (0 ≤ x.toInt) })
  | cmpPl => (none, { sr with t := decide (0 < x.toInt) })
  -- these name their source in the second digit
  | ldcSr => (none, Datapath.toSr (regs .b n))
  | ldcGbr => (some (0x10, regs .b n), sr)
  | ldcVbr => (some (0x11, regs .b n), sr)
  | ldsPr => (some (regPr, regs .b n), sr)
  | shad => (some (n, shiftBy (x <<< ·) x.sshiftRight y), sr)
  | shld => (some (n, shiftBy (x <<< ·) (x >>> ·) y), sr)
  | mov => (some (n, y), sr)
  | not => (some (n, ~~~y), sr)
  | swapB => (some (n, y.extractLsb' 16 16 ++ y.extractLsb' 0 8 ++ y.extractLsb' 8 8), sr)
  | swapW => (some (n, y.extractLsb' 0 16 ++ y.extractLsb' 16 16), sr)
  | negc =>
    (some (n, 0 - y - BitVec.ofNat 32 sr.t.toNat), { sr with t := 0 < y.toNat + sr.t.toNat })
  | neg => (some (n, -y), sr)
  | extuB => (some (n, (y.extractLsb' 0 8).setWidth 32), sr)
  | extuW => (some (n, (y.extractLsb' 0 16).setWidth 32), sr)
  | extsB => (some (n, (y.extractLsb' 0 8).signExtend 32), sr)
  | extsW => (some (n, (y.extractLsb' 0 16).signExtend 32), sr)
  | addI => (some (n, x + immS8_0 code), sr)
  | cmpEqI => (none, { sr with t := r0 == immS8_0 code })
  -- PC counts from a multiple of four
  | mova => (some (0, (pc.extractLsb' 2 30 ++ 0#2) + (immU8 code <<< 2)), sr)
  | tstI => (none, { sr with t := r0 &&& immU8 code == 0 })
  | andI => (some (0, r0 &&& immU8 code), sr)
  | xorI => (some (0, r0 ^^^ immU8 code), sr)
  | orI => (some (0, r0 ||| immU8 code), sr)
  | movI => (some (n, immS8_0 code), sr)

/-! ### The microcode -/

/-- The address of the line. -/
def startAddr : RegInstr → BitVec 8
  | clrt => 0
  | nop => 3
  | sett => 10
  | div0u => 2
  | stcSr => 34
  | stcGbr => 35
  | stcVbr => 36
  | movt => 19
  | stsPr => 39
  | div0s => 103
  | tst => 123
  | and => 91
  | xor => 124
  | or => 117
  | cmpStr => 97
  | xtrct => 125
  | cmpEq => 92
  | cmpHs => 93
  | cmpGe => 94
  | div1 => 102
  | cmpHi => 95
  | cmpGt => 96
  | sub => 118
  | subc => 119
  | subv => 120
  | add => 88
  | addc => 89
  | addv => 90
  | shll => 26
  | shlr => 27
  | rotl => 20
  | rotr => 21
  | shal => 24
  | shar => 25
  | rotcl => 22
  | rotcr => 23
  | shll2 => 28
  | shlr2 => 29
  | shll8 => 30
  | shlr8 => 31
  | shll16 => 32
  | shlr16 => 33
  | dt => 18
  | cmpPz => 17
  | cmpPl => 16
  | ldcSr => 57
  | ldcGbr => 58
  | ldcVbr => 59
  | ldsPr => 62
  | shad => 126
  | shld => 127
  | mov => 110
  | not => 116
  | swapB => 121
  | swapW => 122
  | negc => 115
  | neg => 114
  | extuB => 108
  | extuW => 109
  | extsB => 106
  | extsW => 107
  | addI => 207
  | cmpEqI => 196
  | mova => 166
  | tstI => 198
  | andI => 195
  | xorI => 199
  | orI => 197
  | movI => 208

end RegInstr

/-! ### Kinds of lines -/

namespace Line

/-- Both registers of the word are operands. -/
def two : Line := { xSel := .selReg, numX := 2, ySel := .selReg, numY := 18 }

/-- The register of the second digit and a constant. -/
def one (imm : BitVec 5) : Line := { xSel := .selReg, numX := 2, imm := imm, numY := 4 }

/-- The register of the third digit. -/
def source : Line := { ySel := .selReg, numY := 18 }

/-- Register 0 and the low byte of the word. -/
def zero (imm : BitVec 5) : Line := { xSel := .selReg, numX := 3, imm := imm, numY := 4 }

/-- The result goes to the register of the second digit. -/
def toN (line : Line) (z : ZbusSel) : Line := { line with zSel := z, wrregZ := true, numZ := 1 }

/-- The result goes to register 0. -/
def toZero (line : Line) (z : ZbusSel) : Line := { line with zSel := z, wrregZ := true, numZ := 7 }

/-- T is set from the arithmetic unit. -/
def compare (line : Line) (func : ArithFunc) (flag : ArithSrFunc) : Line :=
  { line with srSel := .selArith, arithFunc := func, arithSr := flag }

/-- T is set from the logic unit. -/
def test (line : Line) (func : LogicFunc) (flag : LogicSrFunc) : Line :=
  { line with srSel := .selLogic, logicFunc := func, logicSr := flag }

/-- A shift by one place, which T takes the lost bit of. -/
def shiftOne (imm : BitVec 5) (shift : Shiftfunc) : Line :=
  { (one imm).toN .selShift with shift := shift, srSel := .selSetT, tSel := .selShift }

/-- An operation with T as its carry in and out. -/
def withCarry (line : Line) (func : ArithFunc) : Line :=
  { line.toN .selArith with
    arithFunc := func, arithCi := true, srSel := .selSetT, tSel := .selCarry }

end Line

namespace RegInstr

open Line

/-- The fields of the line. -/
def line : RegInstr → Line
  | clrt => { srSel := .selSetT }
  | nop => {}
  | sett => { srSel := .selSetT, tSel := .selSet }
  | div0u => { srSel := .selDiv0u }
  | stcSr => toN { ySel := .selSr, numY := 5 } .selYbus
  | stcGbr => toN { ySel := .selReg, numY := 6 } .selYbus
  | stcVbr => toN { ySel := .selReg, numY := 7 } .selYbus
  | movt => { toN { ySel := .selSr, numY := 5 } .selLogic with imm := 2, logicFunc := .logicAnd }
  | stsPr => toN { ySel := .selReg, numY := 3 } .selYbus
  | div0s => two.compare .add .div0s
  | tst => two.test .logicAnd .zero
  | and => { two.toN .selLogic with logicFunc := .logicAnd }
  | xor => { two.toN .selLogic with logicFunc := .logicXor }
  | or => { two.toN .selLogic with logicFunc := .logicOr }
  | cmpStr => two.test .logicXor .byteEq
  | xtrct => { two.toN .selManip with manip := .extract }
  | cmpEq => two.test .logicXor .zero
  | cmpHs => two.compare .sub .ugrterEq
  | cmpGe => two.compare .sub .sgrterEq
  | div1 => { (two.toN .selArith).compare .add .div1 with inx := .selRotcl }
  | cmpHi => two.compare .sub .ugrter
  | cmpGt => two.compare .sub .sgrter
  | sub => { two.toN .selArith with arithFunc := .sub }
  | subc => two.withCarry .sub
  | subv => (two.toN .selArith).compare .sub .overunderflow
  | add => two.toN .selArith
  | addc => two.withCarry .add
  | addv => (two.toN .selArith).compare .add .overunderflow
  | shll | shal => shiftOne 2 .logic
  | shlr => shiftOne 3 .logic
  | rotl => shiftOne 2 .rotate
  | rotr => shiftOne 3 .rotate
  | shar => shiftOne 3 .arith
  | rotcl => shiftOne 2 .rotc
  | rotcr => shiftOne 3 .rotc
  | shll2 => (one 4).toN .selShift
  | shlr2 => (one 5).toN .selShift
  | shll8 => (one 6).toN .selShift
  | shlr8 => (one 7).toN .selShift
  | shll16 => (one 8).toN .selShift
  | shlr16 => (one 9).toN .selShift
  | dt => ((one 2).toN .selArith).compare .sub .zero
  | cmpPz => (one 1).compare .sub .sgrterEq
  | cmpPl => (one 1).compare .sub .sgrter
  | ldcSr => { ySel := .selReg, numY := 17, zSel := .selYbus, srSel := .selZbus }
  | ldcGbr => { ySel := .selReg, numY := 17, zSel := .selYbus, wrregZ := true, numZ := 2 }
  | ldcVbr => { ySel := .selReg, numY := 17, zSel := .selYbus, wrregZ := true, numZ := 3 }
  | ldsPr => { ySel := .selReg, numY := 17, zSel := .selYbus, wrregZ := true, numZ := 4 }
  | shad => { two.toN .selShift with shift := .arith }
  | shld => two.toN .selShift
  | mov => source.toN .selYbus
  | not => { source.toN .selLogic with imm := 1 }
  | swapB => source.toN .selManip
  | swapW => { source.toN .selManip with manip := .swapWord }
  | negc => { source.withCarry .sub with imm := 1 }
  | neg => { source.toN .selArith with imm := 1, arithFunc := .sub }
  | extuB => { source.toN .selManip with manip := .extendUbyte }
  | extuW => { source.toN .selManip with manip := .extendUword }
  | extsB => { source.toN .selManip with manip := .extendSbyte }
  | extsW => { source.toN .selManip with manip := .extendSword }
  | addI => (one 18).toN .selArith
  | cmpEqI => (zero 18).test .logicXor .zero
  | mova => { toZero { xSel := .selPc, numY := 4 } .selArith with imm := 15, inx := .selFc }
  | tstI => (zero 13).test .logicAnd .zero
  | andI => { (zero 13).toZero .selLogic with logicFunc := .logicAnd }
  | xorI => { (zero 13).toZero .selLogic with logicFunc := .logicXor }
  | orI => { (zero 13).toZero .selLogic with logicFunc := .logicOr }
  | movI => { toN { numY := 4 } .selYbus with imm := 18 }

theorem ofRom_startAddr (instr : RegInstr) (t : Bool) :
    Line.ofRom (microcodeLine instr.startAddr) t = instr.line := by
  cases instr <;> cases t <;> decide +kernel

/-! ### What the lines compute -/

/-- The line computes what the instruction is to compute. -/
def Computes (instr : RegInstr) : Prop :=
  ∀ code v, (instr.line.write code v, instr.line.sr code v) = instr.exec code v.pc v.regs v.sr

theorem computes_logic (instr : RegInstr) (h : instr ∈ [clrt, nop, sett, div0u, stcSr, stcGbr, stcVbr,
    stsPr, and, xor, or, ldcSr, ldcGbr, ldcVbr, ldsPr, mov, andI, xorI, orI, movI]) :
    instr.Computes := by
  intro code v
  simp only [List.mem_cons, List.not_mem_nil, or_false] at h
  rcases h with rfl | rfl | rfl | rfl | rfl | rfl | rfl | rfl | rfl | rfl | rfl | rfl | rfl | rfl | rfl |
    rfl | rfl | rfl | rfl | rfl <;> rfl

section Results

variable {r : Regnum} {z z' : BitVec 32} {sr sr' : Sr} {t t' : Bool}

private theorem result_eq (hz : z = z') (hsr : sr = sr') :
    ((some (r, z), sr) : Option (Regnum × BitVec 32) × Sr) = (some (r, z'), sr') := by rw [hz, hsr]

private theorem flag_eq (hsr : sr = sr') :
    ((none, sr) : Option (Regnum × BitVec 32) × Sr) = (none, sr') := by rw [hsr]

private theorem withT_eq (ht : t = t') : { sr with t := t } = { sr with t := t' } := by rw [ht]

end Results

theorem computes_sums (instr : RegInstr)
    (h : instr ∈ [add, addI, sub, neg, addc, subc, negc, addv, subv, dt, div0s, div1]) :
    instr.Computes := by
  intro code v
  simp only [List.mem_cons, List.not_mem_nil, or_false] at h
  rcases h with rfl | rfl | rfl | rfl | rfl | rfl | rfl | rfl | rfl | rfl | rfl | rfl
  · exact result_eq (arithUnit_add_zero _ _) rfl
  · exact result_eq (arithUnit_add_zero _ _) rfl
  · exact result_eq (arithUnit_sub_zero _ _) rfl
  · exact result_eq ((arithUnit_sub_zero _ _).trans (BitVec.zero_sub _)) rfl
  · exact result_eq (arithUnit_add _ _ _).1 (withT_eq (arithUnit_add _ _ _).2)
  · exact result_eq (arithUnit_sub _ _ _).1 (withT_eq (arithUnit_sub _ _ _).2)
  · exact result_eq (arithUnit_sub _ _ _).1 (withT_eq (arithUnit_sub _ _ _).2)
  · exact result_eq (arithUnit_add_zero _ _)
      (arithUpdateSr_arithT _ _ _ .add .overunderflow (by decide) (arithT_overflow _ _ _).1)
  · exact result_eq (arithUnit_sub_zero _ _)
      (arithUpdateSr_arithT _ _ _ .sub .overunderflow (by decide) (arithT_overflow _ _ _).2)
  · exact result_eq (arithUnit_sub_zero _ _)
      (arithUpdateSr_arithT _ _ _ .sub .zero (by decide) (arithT_zero _ _ _))
  · rfl
  · rfl

theorem computes_comparisons (instr : RegInstr)
    (h : instr ∈ [cmpHi, cmpHs, cmpGt, cmpGe, cmpPl, cmpPz, cmpEq, cmpEqI, tst, tstI, cmpStr]) :
    instr.Computes := by
  intro code v
  simp only [List.mem_cons, List.not_mem_nil, or_false] at h
  rcases h with rfl | rfl | rfl | rfl | rfl | rfl | rfl | rfl | rfl | rfl | rfl
  · exact flag_eq (arithUpdateSr_arithT _ _ _ .sub .ugrter (by decide) (arithT_compare _ _ _).1)
  · exact flag_eq (arithUpdateSr_arithT _ _ _ .sub .ugrterEq (by decide) (arithT_compare _ _ _).2.1)
  · exact flag_eq (arithUpdateSr_arithT _ _ _ .sub .sgrter (by decide) (arithT_compare _ _ _).2.2.1)
  · exact flag_eq (arithUpdateSr_arithT _ _ _ .sub .sgrterEq (by decide) (arithT_compare _ _ _).2.2.2)
  · exact flag_eq (arithUpdateSr_arithT _ _ _ .sub .sgrter (by decide) (arithT_compare _ _ _).2.2.1)
  · exact flag_eq (arithUpdateSr_arithT _ _ _ .sub .sgrterEq (by decide) (arithT_compare _ _ _).2.2.2)
  · exact flag_eq (withT_eq (isZero_xor _ _))
  · exact flag_eq (withT_eq (isZero_xor _ _))
  · exact flag_eq (withT_eq (isZero_eq_beq _))
  · exact flag_eq (withT_eq (isZero_eq_beq _))
  · exact flag_eq (withT_eq (any_orReduceBytes_xor _ _))

theorem computes_shifts (instr : RegInstr)
    (h : instr ∈ [shll, shal, shlr, shar, rotl, rotr, rotcl, rotcr, shll2, shlr2, shll8, shlr8, shll16,
      shlr16, shad, shld]) : instr.Computes := by
  intro code v
  simp only [List.mem_cons, List.not_mem_nil, or_false] at h
  rcases h with rfl | rfl | rfl | rfl | rfl | rfl | rfl | rfl | rfl | rfl | rfl | rfl | rfl | rfl | rfl |
    rfl
  · exact result_eq ((bshifter_word _ 1 _).1.trans (if_neg (by decide))) (withT_eq (lost_left _))
  · exact result_eq ((bshifter_word _ 1 _).1.trans (if_neg (by decide))) (withT_eq (lost_left _))
  · exact result_eq ((bshifter_word _ 0xffffffff _).1.trans (if_pos (by decide)))
      (withT_eq (lost_right _))
  · exact result_eq ((bshifter_word _ 0xffffffff _).2.1.trans (if_pos (by decide)))
      (withT_eq (lost_right _))
  · exact result_eq ((bshifter_word _ 1 _).2.2.trans (if_neg (by decide))) (withT_eq (lost_left _))
  · exact result_eq ((bshifter_word _ 0xffffffff _).2.2.trans (if_pos (by decide)))
      (withT_eq (lost_right _))
  · exact result_eq (bshifter_rotcl _ _) (withT_eq (lost_left _))
  · exact result_eq (bshifter_rotcr _ _) (withT_eq (lost_right _))
  · exact result_eq ((bshifter_word _ 2 _).1.trans (if_neg (by decide))) rfl
  · exact result_eq ((bshifter_word _ 0xfffffffe _).1.trans (if_pos (by decide))) rfl
  · exact result_eq ((bshifter_word _ 8 _).1.trans (if_neg (by decide))) rfl
  · exact result_eq ((bshifter_word _ 0xfffffff8 _).1.trans (if_pos (by decide))) rfl
  · exact result_eq ((bshifter_word _ 16 _).1.trans (if_neg (by decide))) rfl
  · exact result_eq ((bshifter_word _ 0xfffffff0 _).1.trans (if_pos (by decide))) rfl
  · exact result_eq (bshifter_word _ _ _).2.1 rfl
  · exact result_eq (bshifter_word _ _ _).1 rfl

theorem computes_bytes (instr : RegInstr)
    (h : instr ∈ [movt, xtrct, not, swapB, swapW, extuB, extuW, extsB, extsW, mova]) :
    instr.Computes := by
  have low : ∀ code : BitVec 16, (0#22 ++ code.extractLsb 7 0 ++ 0#2 : BitVec 32) = immU8 code <<< 2 := by
    intro code
    apply BitVec.eq_of_getLsbD_eq
    intro i hi
    rw [immU8, BitVec.getLsbD_shiftLeft]
    simp only [BitVec.getLsbD_append]
    interval_cases i <;> simp
  intro code v
  simp only [List.mem_cons, List.not_mem_nil, or_false] at h
  rcases h with rfl | rfl | rfl | rfl | rfl | rfl | rfl | rfl | rfl | rfl
  · exact result_eq (one_and_srToSlv _) rfl
  · exact result_eq (manip_extract _ _) rfl
  · exact result_eq (xorAll_true (v.regs .b (regM code))) rfl
  · exact result_eq (manip_swapByte 0 _) rfl
  · exact result_eq (manip_swapWord 0 _) rfl
  · exact result_eq (manip_extendUbyte 0 _) rfl
  · exact result_eq (manip_extendUword 0 _) rfl
  · exact result_eq (manip_extendSbyte 0 _) rfl
  · exact result_eq (manip_extendSword 0 _) rfl
  · refine result_eq ((arithUnit_add_zero _ _).trans ?_) rfl
    rw [← low]
    rfl

/-- Every instruction is the value of its line. -/
theorem computes (instr : RegInstr) : instr.Computes := by
  have kinds : ∀ instr : RegInstr,
      instr ∈ [clrt, nop, sett, div0u, stcSr, stcGbr, stcVbr, stsPr, and, xor, or, ldcSr, ldcGbr, ldcVbr,
        ldsPr, mov, andI, xorI, orI, movI] ∨
      instr ∈ [add, addI, sub, neg, addc, subc, negc, addv, subv, dt, div0s, div1] ∨
      instr ∈ [cmpHi, cmpHs, cmpGt, cmpGe, cmpPl, cmpPz, cmpEq, cmpEqI, tst, tstI, cmpStr] ∨
      instr ∈ [shll, shal, shlr, shar, rotl, rotr, rotcl, rotcr, shll2, shlr2, shll8, shlr8, shll16,
        shlr16, shad, shld] ∨
      instr ∈ [movt, xtrct, not, swapB, swapW, extuB, extuW, extsB, extsW, mova] := by
    intro instr
    cases instr <;> decide
  rcases kinds instr with h | h | h | h | h
  · exact computes_logic instr h
  · exact computes_sums instr h
  · exact computes_comparisons instr h
  · exact computes_shifts instr h
  · exact computes_bytes instr h

end RegInstr

end JCore
