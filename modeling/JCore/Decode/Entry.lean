import JCore.Decode.Decoder

/-!
# Where operations begin

An instruction word leads to the first line of an instruction and an event to the
first line of its system operation. The lines of the events come after those of
all instructions, and no word leads into the middle of a multiply-accumulate.

## Main definitions

* `commandAddr`: the two lines with the command of a multiply-accumulate
* `eventAddr`: the lines from those of the reset on

## Main results

* `nextOp_not_commandAddr`: no operation begins at a command
* `eventAddr_nextOp`: an operation that begins at the line of an event
-/

namespace JCore

/-- The lines with the commands of `MAC.L` and `MAC.W`. -/
def commandAddr (addr : BitVec 8) : Bool := addr == 135 || addr == 138

/-- The lines of the operations for a reset, an interrupt, an error and a break. -/
def eventAddr (addr : BitVec 8) : Bool := 0xe0#8 ≤ addr

/-! ### Instruction words -/

/-- The addresses that no instruction word leads to, bit by bit. -/
theorem unreached_addrOfBits (a7 a6 a5 a4 a3 a2 a1 a0 : Bool) :
    (commandAddr (addrOfBits a7 a6 a5 a4 a3 a2 a1 a0) ||
        eventAddr (addrOfBits a7 a6 a5 a4 a3 a2 a1 a0)) =
      (a7 && (a6 && a5 ||
        !a6 && !a5 && !a4 && (!a3 && a2 && a1 && a0 || a3 && !a2 && a1 && !a0))) := by
  revert a7 a6 a5 a4 a3 a2 a1 a0
  decide

section Words

variable (code : BitVec 16)

theorem predecode0_unreached :
    (commandAddr (predecode0 code) || eventAddr (predecode0 code)) = false := by
  rw [predecode0, unreached_addrOfBits]
  generalize code.getLsbD 0 = c0, code.getLsbD 1 = c1, code.getLsbD 2 = c2, code.getLsbD 3 = c3
  cases c0 <;> cases c1 <;> cases c2 <;> cases c3 <;> simp

theorem predecode2_unreached :
    (commandAddr (predecode2 code) || eventAddr (predecode2 code)) = false := by
  rw [predecode2, unreached_addrOfBits]
  generalize code.getLsbD 0 = c0, code.getLsbD 1 = c1, code.getLsbD 2 = c2, code.getLsbD 3 = c3
  revert c0 c1 c2 c3
  decide

theorem predecode3_unreached :
    (commandAddr (predecode3 code) || eventAddr (predecode3 code)) = false := by
  rw [predecode3, unreached_addrOfBits]
  rfl

theorem predecode4_unreached :
    (commandAddr (predecode4 code) || eventAddr (predecode4 code)) = false := by
  rw [predecode4, unreached_addrOfBits]
  generalize code.getLsbD 0 = c0, code.getLsbD 1 = c1, code.getLsbD 2 = c2, code.getLsbD 3 = c3
  cases c0 <;> cases c1 <;> cases c2 <;> cases c3 <;> simp

theorem predecode6_unreached :
    (commandAddr (predecode6 code) || eventAddr (predecode6 code)) = false := by
  rw [predecode6, unreached_addrOfBits]
  generalize code.getLsbD 0 = c0, code.getLsbD 1 = c1, code.getLsbD 2 = c2, code.getLsbD 3 = c3
  revert c0 c1 c2 c3
  decide

theorem predecode8_unreached :
    (commandAddr (predecode8 code) || eventAddr (predecode8 code)) = false := by
  rw [predecode8, unreached_addrOfBits]
  generalize code.getLsbD 8 = c8, code.getLsbD 9 = c9, code.getLsbD 10 = c10,
    code.getLsbD 11 = c11
  revert c8 c9 c10 c11
  decide

theorem predecodeC_unreached :
    (commandAddr (predecodeC code) || eventAddr (predecodeC code)) = false := by
  rw [predecodeC, unreached_addrOfBits]
  generalize code.getLsbD 8 = c8, code.getLsbD 9 = c9, code.getLsbD 10 = c10,
    code.getLsbD 11 = c11
  revert c8 c9 c10 c11
  decide

theorem predecodeF_unreached :
    (commandAddr (predecodeF code) || eventAddr (predecodeF code)) = false := by
  rw [predecodeF, unreached_addrOfBits]
  rfl

theorem predecodeRomAddr_unreached :
    (commandAddr (predecodeRomAddr code) || eventAddr (predecodeRomAddr code)) = false := by
  have hdigit : ∀ d : BitVec 4, d = 0x0 ∨ d = 0x1 ∨ d = 0x2 ∨ d = 0x3 ∨ d = 0x4 ∨ d = 0x5 ∨
      d = 0x6 ∨ d = 0x7 ∨ d = 0x8 ∨ d = 0x9 ∨ d = 0xa ∨ d = 0xb ∨ d = 0xc ∨ d = 0xd ∨ d = 0xe ∨
      d = 0xf := by decide
  rw [predecodeRomAddr]
  split
  · exact predecode0_unreached code
  · rfl
  · exact predecode2_unreached code
  · exact predecode3_unreached code
  · exact predecode4_unreached code
  · rfl
  · exact predecode6_unreached code
  · rfl
  · exact predecode8_unreached code
  · rfl
  · rfl
  · rfl
  · exact predecodeC_unreached code
  · rfl
  · rfl
  · exact predecodeF_unreached code
  · -- the sixteen digits are all there are, so the default is never taken
    specialize hdigit (code.extractLsb 15 12)
    simp_all

end Words

/-! ### Operations -/

section Operations

variable (this : DecodeCoreReg) (front : DispatchI)

theorem systemInstr_not_commandAddr (instr : SystemInstr) :
    commandAddr (systemInstrRomAddrs instr) = false := by
  cases instr <;> rfl

theorem not_commandAddr_normalOp (code : BitVec 16) :
    commandAddr (DecodeCore.normalOp .rom predecodeRomAddr code).addr = false :=
  (Bool.or_eq_false_iff.mp (predecodeRomAddr_unreached code)).1

theorem not_eventAddr_normalOp (code : BitVec 16) :
    eventAddr (DecodeCore.normalOp .rom predecodeRomAddr code).addr = false :=
  (Bool.or_eq_false_iff.mp (predecodeRomAddr_unreached code)).2

/-- No operation begins at the command of a multiply-accumulate. -/
theorem nextOp_not_commandAddr :
    commandAddr (DecodeCore.nextOp .rom predecodeRomAddr this front).addr = false := by
  rw [DecodeCore.nextOp]
  split_ifs
  · exact systemInstr_not_commandAddr (systemEventInstrs front.eventI.cmd)
  · exact systemInstr_not_commandAddr .slotIllegal
  · exact systemInstr_not_commandAddr .generalIllegal
  · exact systemInstr_not_commandAddr .break
  · exact not_commandAddr_normalOp front.ifDr

variable {this front}

theorem nextOp_of_eventTaken (h : DecodeCore.eventTaken this front = true) :
    DecodeCore.nextOp .rom predecodeRomAddr this front =
      DecodeCore.systemOpEvent .rom front.eventI := if_pos h

/-- An operation that begins among the lines of the events is that of an event
taken, or the break that the debugger asks for. -/
theorem eventAddr_nextOp
    (h : eventAddr (DecodeCore.nextOp .rom predecodeRomAddr this front).addr = true) :
    DecodeCore.eventTaken this front = true ∨
      (DecodeCore.nextOp .rom predecodeRomAddr this front).addr =
        systemInstrRomAddrs .break := by
  rw [DecodeCore.nextOp] at h ⊢
  split_ifs at h ⊢ with hevent
  · exact .inl hevent
  · exact absurd h (by decide)
  · exact absurd h (by decide)
  · exact .inr rfl
  · exact absurd h (by rw [not_eventAddr_normalOp]; decide)

end Operations

end JCore
