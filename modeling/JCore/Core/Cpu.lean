import JCore.Core.Process
import JCore.Decode.Decoder

/-!
# The CPU

The entity `cpu`: the microcode decoder and the data path put together. The
multiplier is left outside, its outputs are inputs. Each of the two entities
reads outputs of the other within a clock; T and the slot, which the decoder
reads, depend on no output of its table, so nothing goes around in a circle.

## Main definitions

* `Cpu.stageCtrl`, `Cpu.decodeCtrl`: the signals from the decoder to the data path
* `Cpu.decoderI`, `Cpu.tBcc`: the signals from the data path to the decoder
* `Cpu.step`, `Cpu.run`: one clock, and the states on a sequence of inputs

## Main results

* `Cpu.combinatorial_slot`, `Cpu.combinatorial_t`: what the decoder reads is what
  the data path puts out
-/

namespace JCore

open Datapath

/-- The inputs of the CPU in one clock, with those of the multiplier. -/
structure CpuI where
  dbI : CpuDataI
  instI : CpuInstructionI
  debugI : CpuDebugI
  copD : BitVec 32
  eventI : CpuEventI
  macBusy : Bool
  mach : BitVec 32
  macl : BitVec 32
  deriving DecidableEq, Repr

def CpuI.datapathI (i : CpuI) : DatapathI :=
  { dbI := i.dbI, instI := i.instI, debugI := i.debugI, copD := i.copD, mach := i.mach,
    macl := i.macl }

/-- The registers of the CPU. -/
@[ext] structure Cpu where
  dec : DecoderReg
  data : Datapath.State

namespace Cpu

/-- The signals of the pipeline for the data path, with the generic
`COPRO_DECODE`. -/
def stageCtrl (coproDecode : Bool) (dec : DecoderReg) : StageCtrl :=
  let p := dec.pipeline
  { reg := p.reg, func := p.func, sr := p.sr dec.core.ilevel, mem := p.mem, buses := p.buses,
    coproc := if coproDecode then p.coproc else { cpuDataMux := .dbus, coprocCmd := .nop },
    wrZ := p.ex1Stall.wrpcZ, wrpr := p.ex1Stall.wrprPc }

/-- A load of SR comes before an update in the execute stage. -/
theorem srSel_stageCtrl (coproDecode : Bool) (dec : DecoderReg) :
    (stageCtrl coproDecode dec).sr.sel =
      if dec.pipeline.wb3Stall.wrsrW then .selWbus else dec.pipeline.ex1Stall.srSel := rfl

variable (coproDecode : Bool) (this : Cpu) (i : CpuI)

def ctrl : StageCtrl := stageCtrl coproDecode this.dec

/-- The values on the internal buses. -/
def processI : ProcessI := Datapath.processI this.data (ctrl coproDecode this) i.datapathI

def slot : Bool := slotO this.data.this i.datapathI

/-- The status register as this clock leaves it. -/
def srC : Sr :=
  if slot this i then nextSr (ctrl coproDecode this) (processI coproDecode this i) this.data.this.sr
  else this.data.this.sr

/-- T for the decoder's conditions. -/
def tBcc : Bool := (srC coproDecode this i).t

def decoderI : DecoderI :=
  { slot := slot this i
    front :=
      { eventI := i.eventI, enterDebug := Datapath.enterDebug this.data.this,
        ibit := this.data.this.sr.intMask, ifDr := this.data.this.ifDr,
        illegalDelaySlot := this.data.this.illegalDelaySlot,
        illegalInstr := this.data.this.illegalInstr }
    ifStall := false
    macBusy := i.macBusy
    maskInt := maskInt this.data.this }

/-- The operation that the decoder presents. -/
def op : Operation := Decoder.romOp this.dec (decoderI this i)

/-- The microcode line of that operation. -/
def line : TableLine := Decoder.romLine this.dec (decoderI this i) (tBcc coproDecode this i)

/-- Whether the line waits. -/
def stalled : Bool := Decoder.romStall this.dec (decoderI this i) (tBcc coproDecode this i)

/-- The signals of the presented line for the data path. -/
def decodeCtrl : DecodeCtrl :=
  let line := line coproDecode this i
  let coreI := Decoder.coreI this.dec (decoderI this i) line
  { debug := line.debug, instr := DecodeCore.instr coreI, inc := DecodeCore.incpc coreI,
    sLatch := line.macSLatch }

/-- One clock. -/
def step : Cpu :=
  { dec := Decoder.romStep this.dec (decoderI this i) (tBcc coproDecode this i)
    data :=
      Datapath.step this.data (ctrl coproDecode this) (decodeCtrl coproDecode this i) i.datapathI }

/-- The states on a sequence of inputs. -/
def run (start : Cpu) (clk : ℕ → CpuI) : ℕ → Cpu := trace (step coproDecode) start clk

/-- The state after `rst`, with what the register file happens to hold. -/
def reset (regs : RegisterFile 5 21 32) : Cpu :=
  { dec := decoderReset, data := Datapath.reset regs }

/-! ### The signals between the two entities -/

theorem combinatorial_slot (dec : DecodeCtrl) :
    (combinatorial this.data (ctrl coproDecode this) dec i.datapathI).slot = slot this i :=
  process_slot _ _ _ _ _

theorem combinatorial_sr (dec : DecodeCtrl) :
    (combinatorial this.data (ctrl coproDecode this) dec i.datapathI).sr =
      srC coproDecode this i := process_sr _ _ _ _ _

/-- T as the data path puts it out, whatever line the decoder presents. -/
theorem combinatorial_t (dec : DecodeCtrl) :
    (combinatorial this.data (ctrl coproDecode this) dec i.datapathI).sr.t =
      tBcc coproDecode this i := by
  rw [combinatorial_sr, tBcc]

theorem dataO_step : (step coproDecode this i).data.this.dataO =
    if slot this i && drivesData (ctrl coproDecode this) then
      toDataO (ctrl coproDecode this).mem (ctrl coproDecode this).coproc
        (maAd (ctrl coproDecode this) (processI coproDecode this i))
        (maDw (ctrl coproDecode this) (processI coproDecode this i))
    else if dataAcked this.data.this i.datapathI then nullDataO
    else this.data.this.dataO := process_dataO _ _ _ _ _

end Cpu

end JCore
