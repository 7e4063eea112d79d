import JCore.Decode.Core
import JCore.Decode.Pipeline
import JCore.Decode.Predecode
import JCore.Decode.Table
import JCore.Lib.Trace

/-!
# The decoder

The entity `decode`: core, table and pipeline put together. `Decoder.step` takes
the table's line as an argument, `Decoder.line` is the line of the microcode
table. A table signal depends on the stall only where it says how busy the
multiplier is going to be, and the stall depends on no such signal.
-/

namespace JCore

/-- The registers of the decoder. -/
@[ext] structure DecoderReg where
  core : DecodeCoreReg
  pipeline : Pipeline
  deriving DecidableEq, Repr

/-- The inputs of the decoder besides T. -/
structure DecoderI where
  slot : Bool
  front : DispatchI
  ifStall : Bool
  macBusy : Bool
  maskInt : Bool
  deriving DecidableEq, Repr

def decoderReset : DecoderReg := { core := decCoreRomReset, pipeline := pipelineReset }

namespace Decoder

variable (this : DecoderReg) (i : DecoderI) (line : TableLine)

/-- The inputs of the core for a line of the table. -/
def coreI : DecodeCoreI :=
  { line := line, p := this.pipeline, ifStall := i.ifStall, macBusy := i.macBusy,
    maskintNext := i.maskInt || line.maskintNext }

def nextIdStall : Bool := DecodeCore.nextIdStall (coreI this i line)

section Variants

variable (decodeType : CpuDecodeType) (predecode : BitVec 16 → BitVec 8)

/-- The operation presented to the table. -/
def op : Operation := DecodeCore.op decodeType predecode this.core i.front

/-- One clock of the decoder with a line of the table. -/
def step : DecoderReg :=
  { core := DecodeCore.step decodeType predecode this.core i.front (coreI this i line) i.slot
    pipeline := this.pipeline.step i.slot (nextIdStall this i line) line }

/-- The decoder is at a dispatch boundary: the operation comes from `next_op`. -/
def boundary : Bool := !this.core.idStall && this.core.instrSeqZero

variable {this i line}

theorem op_of_boundary (h : boundary this = true) :
    op this i decodeType predecode = DecodeCore.nextOp decodeType predecode this.core i.front := by
  rw [boundary, Bool.and_eq_true, Bool.not_eq_true'] at h
  rw [op, DecodeCore.op, h.1, h.2]
  rfl

theorem op_of_not_boundary (h : boundary this = false) :
    op this i decodeType predecode = this.core.op := by
  rw [op, DecodeCore.op, if_pos]
  revert h
  rw [boundary]
  cases this.core.idStall <;> simp

/-- A clock without a slot changes nothing. -/
theorem step_of_not_slot (h : i.slot = false) : step this i line decodeType predecode = this := by
  rw [step, h]
  rfl

/-- A slot latches the presented operation. If its line is issued the operation
moves on to the next line, otherwise it stays and is marked as stalled. -/
theorem core_step_of_slot (h : i.slot = true) :
    (step this i line decodeType predecode).core =
      { maskint := i.maskInt || line.maskintNext
        ilevel := if line.ilevelCap then i.front.eventI.lvl else this.core.ilevel
        idStall := nextIdStall this i line
        delaySlot := if nextIdStall this i line then this.core.delaySlot else line.delayJump
        instrSeqZero := if nextIdStall this i line then this.core.instrSeqZero else line.dispatch
        op :=
          if nextIdStall this i line then op this i decodeType predecode
          else
            { op this i decodeType predecode with
              addr := (op this i decodeType predecode).addr + 1 } } := by
  have hlatch : (if (!this.core.idStall && this.core.instrSeqZero) = true then
      DecodeCore.nextOp decodeType predecode this.core i.front
      else this.core.op) = op this i decodeType predecode := by
    by_cases hb : boundary this = true
    · rw [op_of_boundary _ _ hb]
      exact if_pos hb
    · rw [op_of_not_boundary _ _ (Bool.eq_false_iff.mpr hb)]
      exact if_neg hb
  rw [step, DecodeCore.step, h, ← hlatch]
  rfl

/-- The next boundary follows the line that dispatches. -/
theorem boundary_step (h : i.slot = true) :
    boundary (step this i line decodeType predecode) =
      (!nextIdStall this i line && line.dispatch) := by
  rw [boundary, core_step_of_slot decodeType predecode h]
  cases nextIdStall this i line <;> rfl

end Variants

/-! ### The microcode decoder -/

/-- The operation that the microcode decoder presents. -/
def romOp : Operation := op this i .rom predecodeRomAddr

/-- Whether that operation's line is stalled. -/
def romStall (tBcc : Bool) : Bool :=
  nextIdStall this i (DecodeTable.decodeTable (romOp this i) tBcc false)

/-- The line of the microcode for that operation. -/
def romLine (tBcc : Bool) : TableLine :=
  DecodeTable.decodeTable (romOp this i) tBcc (romStall this i tBcc)

/-- One clock of the microcode decoder. -/
def romStep (tBcc : Bool) : DecoderReg :=
  step this i (romLine this i tBcc) .rom predecodeRomAddr

theorem nextIdStall_romLine (tBcc : Bool) :
    nextIdStall this i (romLine this i tBcc) = romStall this i tBcc := rfl

section RomStep

variable {this i} {tBcc : Bool}

theorem romOp_of_not_boundary (h : boundary this = false) : romOp this i = this.core.op :=
  op_of_not_boundary _ _ h

theorem romOp_of_boundary (h : boundary this = true) :
    romOp this i = DecodeCore.nextOp .rom predecodeRomAddr this.core i.front :=
  op_of_boundary _ _ h

theorem romStep_of_not_slot (h : i.slot = false) : romStep this i tBcc = this :=
  step_of_not_slot _ _ h

theorem pipeline_romStep (h : i.slot = true) : (romStep this i tBcc).pipeline =
    this.pipeline.step true (romStall this i tBcc) (romLine this i tBcc) := by
  rw [romStep, step, h, nextIdStall_romLine]

theorem core_romStep (h : i.slot = true) : (romStep this i tBcc).core =
    { maskint := i.maskInt || (romLine this i tBcc).maskintNext
      ilevel := if (romLine this i tBcc).ilevelCap then i.front.eventI.lvl else this.core.ilevel
      idStall := romStall this i tBcc
      delaySlot :=
        if romStall this i tBcc then this.core.delaySlot else (romLine this i tBcc).delayJump
      instrSeqZero :=
        if romStall this i tBcc then this.core.instrSeqZero else (romLine this i tBcc).dispatch
      op :=
        if romStall this i tBcc then romOp this i
        else { romOp this i with addr := (romOp this i).addr + 1 } } :=
  core_step_of_slot _ _ h

theorem boundary_romStep (h : i.slot = true) : boundary (romStep this i tBcc) =
    (!romStall this i tBcc && (romLine this i tBcc).dispatch) := boundary_step _ _ h

end RomStep

end Decoder

end JCore
