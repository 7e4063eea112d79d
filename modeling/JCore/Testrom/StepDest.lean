import JCore.Core.Implements
import JCore.Testrom.Sh2

/-!
# Where a step goes to

The stub finds out where an instruction will go to by looking at its word. The instruction
set says where it goes to: a branch with a delay slot goes there behind the instruction in
the slot.

## Main definitions

* `Isa.live`: the next instruction of a program that is fetched from its own memory
* `Isa.stepOver`: an instruction with its delay slot
* `Represents`: the registers as the stub keeps them

## Main results

* `getStepiDest_eq`: the two agree
-/

namespace JCore

open Sim DecodeTable

/-! ### Programs in memory -/

/-- The words of a memory of bytes. -/
def codeOf (mem : ByteMemory) : InstrMemory := fun a => mem (a ++ 0#1) ++ mem (a ++ 0#1 + 1)

namespace Isa

/-- The next instruction of a program that is fetched from its own memory. -/
def live (i : Isa) : Option Isa := i.step (codeOf i.state.mem)

/-- The next instruction, with the one in its delay slot. -/
def stepOver (i : Isa) : Option Isa :=
  i.live.bind fun i' => if i'.flow.inSlot then i'.live else some i'

end Isa

namespace Gdb

/-- The registers as the stub keeps them. -/
structure Represents (rf : RegisterFileS) (S : IsaState) : Prop where
  r : ∀ n : BitVec 4, S.regs (0#1 ++ n) = rf.r n
  pr : S.regs regPr = rf.pr
  gbr : S.regs regGbr = rf.gbr
  vbr : S.regs regVbr = rf.vbr
  sr : S.sr = Datapath.toSr rf.sr

/-! ### Words -/

theorem shortAt_eq (mem : ByteMemory) (a : BitVec 32) : shortAt mem a = wordAt (codeOf mem) a := by
  rw [shortAt, loadAt, flatLoad, alignTo, wordAt, codeOf]
  apply BitVec.eq_of_getLsbD_eq
  intro i hi
  rw [BitVec.getLsbD_setWidth, BitVec.getLsbD_signExtend, if_pos hi, decide_eq_true hi,
    decide_eq_true (show i < 32 by omega), Bool.true_and, Bool.true_and]

theorem eq_ofDigits (op : BitVec 16) : op = ofDigits (codeGroup op) (codeHigh op) (codeLow op) := by
  apply BitVec.eq_of_getLsbD_eq
  intro i hi
  rw [ofDigits, codeGroup, codeHigh, codeLow]
  interval_cases i <;> simp only [BitVec.getLsbD_append, BitVec.getLsbD_extractLsb] <;> simp

theorem ofDigits_eq_iff {g h g' h' : BitVec 4} {l l' : BitVec 8} :
    ofDigits g h l = ofDigits g' h' l' ↔ (g = g' ∧ h = h') ∧ l = l' := by
  constructor
  · intro same
    have group := congrArg codeGroup same
    have high := congrArg codeHigh same
    have low := congrArg codeLow same
    rw [codeGroup_ofDigits, codeGroup_ofDigits] at group
    rw [codeHigh_ofDigits, codeHigh_ofDigits] at high
    rw [codeLow_ofDigits, codeLow_ofDigits] at low
    exact ⟨⟨group, high⟩, low⟩
  · rintro ⟨⟨rfl, rfl⟩, rfl⟩
    rfl

/-- A mask and a value, digit by digit. -/
theorem masked (op : BitVec 16) (mg mh vg vh : BitVec 4) (ml vl : BitVec 8) :
    (op &&& ofDigits mg mh ml == ofDigits vg vh vl) =
      (codeGroup op &&& mg == vg && codeHigh op &&& mh == vh && codeLow op &&& ml == vl) := by
  have digits : op &&& ofDigits mg mh ml =
      ofDigits (codeGroup op &&& mg) (codeHigh op &&& mh) (codeLow op &&& ml) := by
    conv_lhs => rw [eq_ofDigits op]
    rw [ofDigits, ofDigits, BitVec.and_append, BitVec.and_append]
    rfl
  rw [digits, Bool.eq_iff_iff, beq_iff_eq, Bool.and_eq_true, Bool.and_eq_true, beq_iff_eq, beq_iff_eq,
    beq_iff_eq, ofDigits_eq_iff]

section Masks

variable (op : BitVec 16)

theorem and_f (x : BitVec 4) : x &&& 0xf = x := by
  have all : ∀ x : BitVec 4, x &&& 0xf = x := by decide
  exact all x

theorem and_ff (x : BitVec 8) : x &&& 0xff = x := by
  have all : ∀ x : BitVec 8, x &&& 0xff = x := by decide
  exact all x

theorem masked_ff00 (vg vh : BitVec 4) :
    (op &&& 0xff00 == ofDigits vg vh 0) = (codeGroup op == vg && codeHigh op == vh) := by
  have h := masked op 0xf 0xf vg vh 0 0
  rw [and_f, and_f] at h
  refine h.trans ?_
  rw [show codeLow op &&& 0 = 0 from BitVec.and_zero, beq_self_eq_true, Bool.and_true]

theorem masked_f000 (vg : BitVec 4) : (op &&& 0xf000 == ofDigits vg 0 0) = (codeGroup op == vg) := by
  have h := masked op 0xf 0 vg 0 0 0
  rw [and_f] at h
  refine h.trans ?_
  rw [show codeLow op &&& 0 = 0 from BitVec.and_zero, show codeHigh op &&& 0 = 0 from BitVec.and_zero,
    beq_self_eq_true, beq_self_eq_true, Bool.and_true, Bool.and_true]

theorem masked_f0ff (vg : BitVec 4) (vl : BitVec 8) :
    (op &&& 0xf0ff == ofDigits vg 0 vl) = (codeGroup op == vg && codeLow op == vl) := by
  have h := masked op 0xf 0 vg 0 0xff vl
  rw [and_f, and_ff] at h
  refine h.trans ?_
  rw [show codeHigh op &&& 0 = 0 from BitVec.and_zero, beq_self_eq_true, Bool.and_true]

theorem masked_all (vg vh : BitVec 4) (vl : BitVec 8) :
    (op == ofDigits vg vh vl) = (codeGroup op == vg && codeHigh op == vh && codeLow op == vl) := by
  have h := masked op 0xf 0xf vg vh 0xff vl
  rw [and_f, and_f, and_ff] at h
  refine Eq.trans ?_ h
  congr 1
  exact BitVec.and_allOnes.symm

theorem opcodeBt_eq : opcodeBt op = (codeGroup op == 0x8 && codeHigh op == 0x9) :=
  masked_ff00 op 0x8 0x9

theorem opcodeBf_eq : opcodeBf op = (codeGroup op == 0x8 && codeHigh op == 0xb) :=
  masked_ff00 op 0x8 0xb

theorem opcodeBts_eq : opcodeBts op = (codeGroup op == 0x8 && codeHigh op == 0xd) :=
  masked_ff00 op 0x8 0xd

theorem opcodeBfs_eq : opcodeBfs op = (codeGroup op == 0x8 && codeHigh op == 0xf) :=
  masked_ff00 op 0x8 0xf

theorem opcodeBra_eq : opcodeBra op = (codeGroup op == 0xa) := masked_f000 op 0xa

theorem opcodeBsr_eq : opcodeBsr op = (codeGroup op == 0xb) := masked_f000 op 0xb

theorem opcodeBraf_eq : opcodeBraf op = (codeGroup op == 0x0 && codeLow op == 0x23) :=
  masked_f0ff op 0x0 0x23

theorem opcodeBsrf_eq : opcodeBsrf op = (codeGroup op == 0x0 && codeLow op == 0x03) :=
  masked_f0ff op 0x0 0x03

theorem opcodeJmp_eq : opcodeJmp op = (codeGroup op == 0x4 && codeLow op == 0x2b) :=
  masked_f0ff op 0x4 0x2b

theorem opcodeJsr_eq : opcodeJsr op = (codeGroup op == 0x4 && codeLow op == 0x0b) :=
  masked_f0ff op 0x4 0x0b

theorem opcodeRts_eq :
    opcodeRts op = (codeGroup op == 0x0 && codeHigh op == 0x0 && codeLow op == 0x0b) :=
  masked_all op 0x0 0x0 0x0b

theorem opcodeRte_eq :
    opcodeRte op = (codeGroup op == 0x0 && codeHigh op == 0x0 && codeLow op == 0x2b) :=
  masked_all op 0x0 0x0 0x2b

theorem opcodeTrapa_eq : opcodeTrapa op = (codeGroup op == 0xc && codeHigh op == 0x3) :=
  masked_ff00 op 0xc 0x3

end Masks

/-! ### Operands -/

section Operands

variable (op : BitVec 16)

theorem and_mask_ne_zero (x : BitVec 32) {k : ℕ} (hk : k < 32) :
    (x &&& BitVec.twoPow 32 k ≠ 0) ↔ x.getLsbD k = true := by
  rw [BitVec.and_twoPow]
  cases x.getLsbD k with
  | true =>
    simp only [if_true, iff_true, ne_eq]
    intro zero
    have bit := congrArg (fun x => BitVec.getLsbD x k) zero
    simp [hk] at bit
  | false => simp

theorem t_eq (x : BitVec 32) : (x &&& srTBitMask != 0) = x.getLsbD 0 := by
  have h := and_mask_ne_zero x (show 0 < 32 by decide)
  rw [Bool.eq_iff_iff, bne_iff_ne]
  exact h

theorem opcodeReg_eq : opcodeReg op = op.extractLsb 11 8 := by
  apply BitVec.eq_of_getLsbD_eq
  intro i hi
  rw [opcodeReg]
  interval_cases i <;> simp

theorem opcodeBtfDisp_eq : opcodeBtfDisp op = immS8_1 op := by
  have sign := and_mask_ne_zero (op.signExtend 32) (show 7 < 32 by decide)
  have bit : (op.signExtend 32).getLsbD 7 = op.getLsbD 7 := by
    simp [BitVec.getElem_signExtend]
  have msb : (op.extractLsb' 0 8 ++ 0#1).msb = op.getLsbD 7 := by
    rw [BitVec.msb_eq_getLsbD_last, BitVec.getLsbD_append]
    simp
  rw [bit] at sign
  rw [opcodeBtfDisp, immS8_1]
  show (if op.signExtend 32 &&& BitVec.twoPow 32 7 ≠ 0 then _ else _) =
    (op.extractLsb' 0 8 ++ 0#1).signExtend 32
  simp only [sign]
  apply BitVec.eq_of_getLsbD_eq
  intro i hi
  rw [BitVec.getLsbD_signExtend, msb, BitVec.getLsbD_append]
  have last : op[7] = op.getLsbD 7 := rfl
  cases negative : op.getLsbD 7 <;> rw [negative] at last <;> interval_cases i <;>
    simp [BitVec.getElem_signExtend, last]

theorem opcodeBraDisp_eq : opcodeBraDisp op = immS12_1 op := by
  have sign := and_mask_ne_zero (op.signExtend 32) (show 11 < 32 by decide)
  have bit : (op.signExtend 32).getLsbD 11 = op.getLsbD 11 := by
    simp [BitVec.getElem_signExtend]
  have msb : (op.extractLsb' 0 12 ++ 0#1).msb = op.getLsbD 11 := by
    rw [BitVec.msb_eq_getLsbD_last, BitVec.getLsbD_append]
    simp
  rw [bit] at sign
  rw [opcodeBraDisp, immS12_1]
  show (if op.signExtend 32 &&& BitVec.twoPow 32 11 ≠ 0 then _ else _) =
    (op.extractLsb' 0 12 ++ 0#1).signExtend 32
  simp only [sign]
  apply BitVec.eq_of_getLsbD_eq
  intro i hi
  rw [BitVec.getLsbD_signExtend, msb, BitVec.getLsbD_append]
  have last : op[11] = op.getLsbD 11 := rfl
  cases negative : op.getLsbD 11 <;> rw [negative] at last <;> interval_cases i <;>
    simp [BitVec.getElem_signExtend, last]

end Operands

/-! ### Branches -/

/-- The digits of a branch. -/
def BranchDigits (op : BitVec 16) : Branch → Prop
  | .bra => codeGroup op = 0xa
  | .bsr => codeGroup op = 0xb
  | .braf => codeGroup op = 0x0 ∧ codeLow op = 0x23
  | .bsrf => codeGroup op = 0x0 ∧ codeLow op = 0x03
  | .jmp => codeGroup op = 0x4 ∧ codeLow op = 0x2b
  | .jsr => codeGroup op = 0x4 ∧ codeLow op = 0x0b
  | .rts => (codeGroup op = 0x0 ∧ codeHigh op = 0x0) ∧ codeLow op = 0x0b
  | .bt => codeGroup op = 0x8 ∧ codeHigh op = 0x9
  | .bf => codeGroup op = 0x8 ∧ codeHigh op = 0xb
  | .bts => codeGroup op = 0x8 ∧ codeHigh op = 0xd
  | .bfs => codeGroup op = 0x8 ∧ codeHigh op = 0xf

theorem digits_of_branch {op : BitVec 16} {b : Branch} (h : Branch.ofCode op = some b) :
    BranchDigits op b := by
  rw [Branch.ofCode] at h
  split at h
  case h_1 group =>
    split_ifs at h with rts braf bsrf
    · rw [Bool.and_eq_true, beq_iff_eq, beq_iff_eq] at rts
      obtain rfl := Option.some.inj h
      exact ⟨⟨group, rts.1⟩, rts.2⟩
    · obtain rfl := Option.some.inj h
      exact ⟨group, beq_iff_eq.mp braf⟩
    · obtain rfl := Option.some.inj h
      exact ⟨group, beq_iff_eq.mp bsrf⟩
  case h_2 group =>
    split_ifs at h with jmp jsr
    · obtain rfl := Option.some.inj h
      exact ⟨group, beq_iff_eq.mp jmp⟩
    · obtain rfl := Option.some.inj h
      exact ⟨group, beq_iff_eq.mp jsr⟩
  case h_3 group =>
    split at h
    case h_1 high => exact Option.some.inj h ▸ ⟨group, high⟩
    case h_2 high => exact Option.some.inj h ▸ ⟨group, high⟩
    case h_3 high => exact Option.some.inj h ▸ ⟨group, high⟩
    case h_4 high => exact Option.some.inj h ▸ ⟨group, high⟩
    case h_5 => exact absurd h (Option.some_ne_none _).symm
  case h_4 group => exact Option.some.inj h ▸ group
  case h_5 group => exact Option.some.inj h ▸ group
  case h_6 => exact absurd h (Option.some_ne_none _).symm

/-- A word with the digits of a branch is the branch. -/
theorem branch_of_digits {op : BitVec 16} {b : Branch} (h : BranchDigits op b) :
    Branch.ofCode op = some b := by
  cases b with
  | bra | bsr =>
    rw [Branch.ofCode, show codeGroup op = _ from h]
    rfl
  | braf | bsrf | jmp | jsr => simp [Branch.ofCode, h.1, h.2]
  | rts => simp [Branch.ofCode, h.1.1, h.1.2, h.2]
  | bt | bf | bts | bfs => simp [Branch.ofCode, h.1, h.2]

section Dest

variable {rf : RegisterFileS} {S : IsaState} {mem : ByteMemory}

/-- The stub takes a branch for what it is. -/
theorem getStepiDest_of_branch (rep : Represents rf S) {op : BitVec 16} (here : shortAt mem rf.pc = op)
    {b : Branch} (h : Branch.ofCode op = some b) :
    getStepiDest rf mem =
      if b.taken S.sr.t then b.target op rf.pc S.regs S.regs else rf.pc + 2 := by
  have t : (rf.sr &&& srTBitMask != 0) = S.sr.t := by
    rw [t_eq, rep.sr]
    rfl
  have reg : rf.r (opcodeReg op) = S.regs (Branch.regN op) := by
    rw [opcodeReg_eq, ← rep.r]
    rfl
  have digits := digits_of_branch h
  simp only [getStepiDest, here, t, reg, opcodeBtfDisp_eq, opcodeBraDisp_eq, opcodeBt_eq, opcodeBf_eq,
    opcodeBts_eq, opcodeBfs_eq, opcodeBra_eq, opcodeBsr_eq, opcodeBraf_eq, opcodeBsrf_eq,
    opcodeJmp_eq, opcodeJsr_eq, opcodeRts_eq, opcodeRte_eq, opcodeTrapa_eq, ← rep.pr]
  cases b with
  | bra | bsr =>
    rw [show codeGroup op = _ from digits]
    rfl
  | braf | bsrf | jmp | jsr =>
    rw [digits.1, digits.2]
    rfl
  | rts =>
    rw [digits.1.1, digits.1.2, digits.2]
    rfl
  | bt | bf | bts | bfs =>
    rw [digits.1, digits.2]
    cases S.sr.t <;> rfl

/-- Anything else goes on to the next word, but for the two instructions that load PC from the
memory. -/
theorem getStepiDest_of_instr {op : BitVec 16} (here : shortAt mem rf.pc = op) {instr : Instr}
    (h : Instr.ofCode op = some instr) : getStepiDest rf mem = rf.pc + 2 := by
  have none := (Instr.start_of_code h).1
  have other : ∀ b, ¬BranchDigits op b := by
    intro b digits
    rw [branch_of_digits digits] at none
    exact absurd none (Option.some_ne_none _)
  have rte : ¬((codeGroup op = 0x0 ∧ codeHigh op = 0x0) ∧ codeLow op = 0x2b) := by
    rintro ⟨⟨group, high⟩, low⟩
    simp [Instr.ofCode, RegInstr.ofCode, MemInstr.ofCode, group, low] at h
  have trapa : ¬(codeGroup op = 0xc ∧ codeHigh op = 0x3) := by
    rintro ⟨group, high⟩
    simp [Instr.ofCode, RegInstr.ofCode, MemInstr.ofCode, group, high] at h
  have bt := other .bt
  have bf := other .bf
  have bts := other .bts
  have bfs := other .bfs
  have bra := other .bra
  have bsr := other .bsr
  have braf := other .braf
  have bsrf := other .bsrf
  have jmp := other .jmp
  have jsr := other .jsr
  have rts := other .rts
  simp only [BranchDigits, ← beq_iff_eq (α := BitVec 4), ← beq_iff_eq (α := BitVec 8),
    ← Bool.and_eq_true, Bool.not_eq_true] at bt bf bts bfs bra bsr braf bsrf jmp jsr rts rte trapa
  simp only [getStepiDest, here, opcodeBt_eq, opcodeBf_eq, opcodeBts_eq, opcodeBfs_eq, opcodeBra_eq,
    opcodeBsr_eq, opcodeBraf_eq, opcodeBsrf_eq, opcodeJmp_eq, opcodeJsr_eq, opcodeRts_eq,
    opcodeRte_eq, opcodeTrapa_eq, bt, bf, bts, bfs, bra, bsr, braf, bsrf, jmp, jsr, rts, rte, trapa]
  rfl

section Flow

variable (f : Flow) (code : BitVec 16) (t : Bool) (regs : Regnum → BitVec 32) (b : Branch)

theorem inSlot_branch : (f.branch code t regs regs b).inSlot = (b.taken t && b.delayed) := by
  cases b <;> cases t <;> rfl

/-- The flow behind a branch that is not delayed, or not taken. -/
theorem flow_branch (h : (b.taken t && b.delayed) = false) :
    f.branch code t regs regs b =
      Flow.start (if b.taken t then b.target code f.pc regs regs else f.next) := by
  cases b <;> cases t <;> first | rfl | exact absurd h (by decide)

/-- The flow behind a branch with a delay slot. -/
theorem next_branch (h : (b.taken t && b.delayed) = true) :
    (f.branch code t regs regs b).next = b.target code f.pc regs regs := by
  cases b <;> cases t <;> first | rfl | exact absurd h (by decide)

end Flow

/-- The next instruction, by its word. -/
theorem live_eq_some_iff {i i' : Isa} :
    i.live = some i' ↔
      (∃ b, Branch.ofCode (shortAt i.state.mem i.flow.pc) = some b ∧ i.flow.inSlot = false ∧
        i' =
          { flow :=
              i.flow.branch (shortAt i.state.mem i.flow.pc) i.state.sr.t i.state.regs i.state.regs b
            state := if b.links then i.state.set regPr (i.flow.pc + 4) else i.state }) ∨
      ∃ instr, Instr.ofCode (shortAt i.state.mem i.flow.pc) = some instr ∧
        i' =
          { flow := i.flow.goOn
            state := instr.exec (shortAt i.state.mem i.flow.pc) (i.flow.next + 2) i.state } := by
  rw [Isa.live, Isa.step, ← shortAt_eq]
  cases branch : Branch.ofCode (shortAt i.state.mem i.flow.pc) with
  | some b =>
    have no : ∀ instr, Instr.ofCode (shortAt i.state.mem i.flow.pc) ≠ some instr := by
      intro instr h
      rw [(Instr.start_of_code h).1] at branch
      exact absurd branch.symm (Option.some_ne_none _)
    simp only [no, false_and, exists_false, or_false, Option.some.injEq, exists_eq_left']
    cases slot : i.flow.inSlot with
    | true => simp only [if_true, reduceCtorEq, Bool.true_eq_false, false_and]
    | false =>
      simp only [Bool.false_eq_true, if_false, true_and, Option.some.injEq]
      exact eq_comm
  | none =>
    simp only [reduceCtorEq, false_and, exists_false, false_or, Option.map_eq_some_iff]
    exact exists_congr fun instr => and_congr_right fun _ => eq_comm

/-- The stub finds where the program will be behind the next instruction and its delay
slot. -/
theorem getStepiDest_eq (rep : Represents rf S) {i' : Isa}
    (ran : Isa.stepOver { flow := .start rf.pc, state := S } = some i') :
    i'.flow = .start (getStepiDest rf S.mem) := by
  rw [Isa.stepOver, Option.bind_eq_some_iff] at ran
  obtain ⟨i, first, ran⟩ := ran
  rcases live_eq_some_iff.mp first with ⟨b, branch, -, rfl⟩ | ⟨instr, word, rfl⟩
  · rw [getStepiDest_of_branch rep rfl branch]
    rw [inSlot_branch] at ran
    cases slot : b.taken S.sr.t && b.delayed with
    | false =>
      rw [slot, if_neg Bool.false_ne_true, Option.some.injEq] at ran
      rw [← ran]
      exact flow_branch _ _ _ _ b slot
    | true =>
      rw [slot, if_pos rfl] at ran
      rcases live_eq_some_iff.mp ran with ⟨b', -, outside, -⟩ | ⟨instr, -, rfl⟩
      · rw [inSlot_branch, slot] at outside
        exact absurd outside.symm Bool.false_ne_true
      · rw [if_pos (Bool.and_eq_true_iff.mp slot).1]
        exact congrArg Flow.start (next_branch _ _ _ _ b slot)
  · rw [getStepiDest_of_instr rfl word]
    obtain rfl := Option.some.inj ran
    rfl

end Dest

end Gdb

end JCore
