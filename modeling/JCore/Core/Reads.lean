import JCore.Core.Locked
import JCore.Core.RegisterPath
import JCore.Core.StatusRegister

/-!
# Registers as the CPU reads them

The pipeline and the register file of the CPU are the path of `RegPath`, and the
microcode meets what that path asks of its lines. So the line in the execute stage
of the CPU reads the registers that the lines before it left, and SR likewise.

## Main definitions

* `CpuRun.slots`: how many slots start before a clock
* `CpuRun.programRegs`, `CpuRun.programSr`: the registers and SR after the lines of
  the first slots

## Main results

* `lineOk_decodeTable`: every line of the microcode is well formed
* `CpuRun.regX_eq`, `CpuRun.regY_eq`, `CpuRun.reg0_eq`: what the line in the execute
  stage reads
* `CpuRun.programRegs_succ_of_wrregZ`: what a line writes
-/

namespace JCore

open Datapath DecodeTable RegisterFile

/-! ### The lines of the microcode -/

/-- A field of the operation code numbers one of the general registers. -/
theorem regField_lt (x : BitVec 4) : (0#1 ++ x).toNat < 21 := by
  rw [BitVec.toNat_append]
  have := x.isLt
  simp
  omega

theorem regnumZ_lt (line : BitVec 75) (code : BitVec 16) : (regnumZ line code).toNat < 21 := by
  rw [regnumZ]
  split <;> first | exact regField_lt _ | decide

theorem regnumW_lt (line : BitVec 75) (code : BitVec 16) : (regnumW line code).toNat < 21 := by
  rw [regnumW]
  split <;> first | exact regField_lt _ | decide

theorem regnumX_lt (line : BitVec 75) (code : BitVec 16) : (regnumX line code).toNat < 21 := by
  rw [regnumX]
  split <;> first | exact regField_lt _ | decide

theorem regnumY_lt (line : BitVec 75) (code : BitVec 16) : (regnumY line code).toNat < 21 := by
  rw [regnumY]
  split <;> first | exact regField_lt _ | decide

/-- No line of the microcode writes a register on both buses. -/
theorem oneBus_microcodeLine (addr : BitVec 8) :
    (wrregZ (microcodeLine addr) && wrregW (microcodeLine addr)) = false := by
  have test := forall_addr
    (p := fun addr => !(wrregZ (microcodeLine addr) && wrregW (microcodeLine addr)))
    (by decide +kernel) addr
  rwa [Bool.not_eq_true'] at test

theorem lineOk_decodeTable (op : Operation) (tBcc stall : Bool) :
    RegPath.LineOk (decodeTable op tBcc stall) where
  oneBus h := by
    have one := oneBus_microcodeLine op.addr
    rw [show wrregZ (microcodeLine op.addr) = true from h.1,
      show wrregW (microcodeLine op.addr) = true from h.2] at one
    exact absurd one (by decide)
  rangeZ _ := regnumZ_lt _ _
  rangeW _ := regnumW_lt _ _
  rangeX _ := regnumX_lt _ _
  rangeY _ := regnumY_lt _ _

/-! ### The path of the registers -/

namespace Cpu

variable (coproDecode : Bool)

def regPath (this : Cpu) : RegPath := { p := this.dec.pipeline, regs := this.data.regs }

def regPathI (this : Cpu) (i : CpuI) : RegPathI :=
  { slot := slot this i
    line := line coproDecode this i
    stall :=
      DecodeCore.macStall
        (Decoder.coreI this.dec (decoderI this i) (line coproDecode this i))
    zbus := gpfZwd this.data.this this.data.regs (ctrl coproDecode this) i.datapathI
    wbus := wbus this.data.this }

theorem nextIdStall_regPath (this : Cpu) (i : CpuI) :
    (regPath this).nextIdStall (regPathI coproDecode this i) = stalled coproDecode this i := by
  have h : stalled coproDecode this i =
      DecodeCore.nextIdStall (Decoder.coreI this.dec (decoderI this i) (line coproDecode this i)) :=
    rfl
  rw [h, DecodeCore.nextIdStall]
  have free : (Decoder.coreI this.dec (decoderI this i) (line coproDecode this i)).ifStall = false :=
    rfl
  rw [free, Bool.or_false]
  rfl

/-- Pipeline and register file are a part of the CPU. -/
theorem regPath_step (this : Cpu) (i : CpuI) : regPath (step coproDecode this i) =
    RegPath.step (regPath this) (regPathI coproDecode this i) := by
  have hslot : (combinatorial this.data (ctrl coproDecode this) (decodeCtrl coproDecode this i)
      i.datapathI).slot = slot this i := combinatorial_slot _ _ _ _
  have hin : (decoderI this i).slot = slot this i := rfl
  rw [RegPath.step, nextIdStall_regPath, RegPath.mk.injEq]
  constructor
  · show (Decoder.romStep this.dec (decoderI this i) (tBcc coproDecode this i)).pipeline = _
    cases h : slot this i
    · rw [Decoder.romStep_of_not_slot (hin.trans h)]
      simp [regPathI, Pipeline.step, h, regPath]
    · rw [Decoder.pipeline_romStep (hin.trans h)]
      simp only [regPathI, h]
      rfl
  · show (Datapath.step this.data (ctrl coproDecode this) (decodeCtrl coproDecode this i)
      i.datapathI).regs = _
    rw [Datapath.step, hslot]
    rfl

end Cpu

/-! ### Program order -/

namespace CpuRun

variable (run : CpuRun)

/-- The inputs of the registers' path. -/
def regPathI (t : ℕ) : RegPathI := Cpu.regPathI run.coproDecode (run.state t) (run.clk t)

/-- How many slots start before clock `t`. -/
def slots (t : ℕ) : ℕ := Cpu.slotCount run.coproDecode (Cpu.reset run.regs) run.clk t

/-- The inputs in slot `n`. -/
noncomputable def slotI : ℕ → RegPathI := enabledInput RegPathI.slot run.regPathI

/-- Pipeline and registers at the beginning. -/
def regStart : RegPath := Cpu.regPath (run.state 0)

/-- The line presented in slot `n` enters the pipeline. -/
noncomputable def issued (n : ℕ) : Bool := RegPath.issued run.regStart run.slotI n

/-- The registers behind a port after the lines of the first `n` slots. -/
noncomputable def programRegs (port : ReadPort) (n : ℕ) : Regnum → BitVec 32 :=
  RegPath.programOrder run.regStart run.slotI port n

/-- SR after the lines of the first `n` slots. -/
noncomputable def programSr (n : ℕ) : Sr :=
  Cpu.programSr run.coproDecode (Cpu.reset run.regs) run.clk n

variable {run} {t n : ℕ}

theorem regPath_state (t : ℕ) :
    Cpu.regPath (run.state t) = RegPath.atSlot run.regStart run.slotI (run.slots t) := by
  have clocks : Cpu.regPath (run.state t) = trace RegPath.step run.regStart run.regPathI t := by
    induction t with
    | zero => rfl
    | succ t ih =>
      rw [state_succ, Cpu.regPath_step, ih, trace_succ, ← ih]
      rfl
  rw [clocks, RegPath.trace_step_eq_atSlot]
  rfl

theorem slots_succ_of_slot (h : run.slot t = true) : run.slots (t + 1) = run.slots t + 1 :=
  Cpu.slotCount_succ_of_slot h

theorem slots_succ_of_not_slot (h : run.slot t = false) : run.slots (t + 1) = run.slots t := by
  have waits : ¬Cpu.slot (Cpu.run run.coproDecode (Cpu.reset run.regs) run.clk t) (run.clk t) = true :=
    Bool.eq_false_iff.mp h
  rw [slots, Cpu.slotCount, Nat.count_succ, if_neg waits]
  rfl

theorem slotI_slots (h : run.slot t = true) : run.slotI (run.slots t) = run.regPathI t :=
  enabledInput_count RegPathI.slot h

theorem issued_slots (h : run.slot t = true) : run.issued (run.slots t) = !run.stalled t := by
  rw [issued, RegPath.issued, slotI_slots h, ← regPath_state]
  exact congrArg (!·) (Cpu.nextIdStall_regPath _ _ _)

theorem line_slots (h : run.slot t = true) : (run.slotI (run.slots t)).line =
    Cpu.line run.coproDecode (run.state t) (run.clk t) := by
  rw [slotI_slots h]
  rfl

/-- A line that is stalled writes no register. -/
theorem programRegs_succ_of_stalled (h : run.slot t = true) (stall : run.stalled t = true)
    (port : ReadPort) :
    run.programRegs port (run.slots t + 1) = run.programRegs port (run.slots t) := by
  have bubble : RegPath.lineWrite run.regStart run.slotI (run.slots t) = none := by
    have waits : run.issued (run.slots t) = false := by rw [issued_slots h, stall, Bool.not_true]
    rw [issued] at waits
    rw [RegPath.lineWrite, waits, if_neg Bool.false_ne_true]
  rw [programRegs, RegPath.programOrder, afterWrites_succ, bubble, applyWrite_none]
  rfl

/-- Nor does a line without one. -/
theorem programRegs_succ_of_free (port : ReadPort) (z : (run.slotI n).line.exStall.wrregZ = false)
    (w : (run.slotI n).line.wbStall.wrregW = false) :
    run.programRegs port (n + 1) = run.programRegs port n := by
  have free : RegPath.lineWrite run.regStart run.slotI n = none := by
    simp [RegPath.lineWrite, z, w]
  rw [programRegs, RegPath.programOrder, afterWrites_succ, free, applyWrite_none]
  rfl

/-- A line that writes on the Z bus does it one slot later. -/
theorem programRegs_succ_of_wrregZ (port : ReadPort) (issue : run.issued n = true)
    (z : (run.slotI n).line.exStall.wrregZ = true) :
    run.programRegs port (n + 1) (run.slotI n).line.ex.regnumZ = (run.slotI (n + 1)).zbus := by
  have write : RegPath.lineWrite run.regStart run.slotI n =
      some ((run.slotI n).line.ex.regnumZ, (run.slotI (n + 1)).zbus) := by
    rw [issued] at issue
    rw [RegPath.lineWrite, issue, if_pos rfl, z, if_pos rfl]
  rw [programRegs, RegPath.programOrder, afterWrites_succ, write, applyWrite_some, if_pos rfl]

/-- A line that is stalled leaves SR alone. -/
theorem programSr_succ_of_stalled (h : run.slot t = true) (stall : run.stalled t = true) :
    run.programSr (run.slots t + 1) = run.programSr (run.slots t) := by
  have hslot : Cpu.slot (Cpu.run run.coproDecode (Cpu.reset run.regs) run.clk t) (run.clk t) = true := h
  have state : Cpu.srPath (run.state t) = SrPath.atSlot run.coproDecode
      (Cpu.srPath (Cpu.reset run.regs))
      (Cpu.srInputs run.coproDecode (Cpu.reset run.regs) run.clk) (run.slots t) :=
    Cpu.srPath_run _ _ _ t
  have input : Cpu.srInputs run.coproDecode (Cpu.reset run.regs) run.clk (run.slots t) =
      Cpu.srPathI run.coproDecode (run.state t) (run.clk t) := Cpu.srInputs_slotCount hslot
  have waits : SrPath.issued run.coproDecode (Cpu.srPath (Cpu.reset run.regs))
      (Cpu.srInputs run.coproDecode (Cpu.reset run.regs) run.clk) (run.slots t) = false := by
    have sr : Cpu.srC run.coproDecode (run.state t) (run.clk t) =
        SrPath.srC run.coproDecode (Cpu.srPath (run.state t))
          (Cpu.srPathI run.coproDecode (run.state t) (run.clk t)) := if_pos h
    rw [SrPath.issued, SrPath.tAt, ← state, input, ← sr, Bool.not_eq_false']
    exact stall
  rw [programSr, Cpu.programSr, SrPath.programSr, SrPath.lineSr, waits, if_neg Bool.false_ne_true]
  rfl

/-- The line in the execute stage is the one of the last slot, or a bubble. -/
theorem ex1_eq (h : run.slots t = n + 1) :
    (run.state t).dec.pipeline.ex1 = (run.slotI n).line.ex ∧
      (run.state t).dec.pipeline.ex1Stall =
        if run.issued n then (run.slotI n).line.exStall else stageExStallReset := by
  have hp : (run.state t).dec.pipeline = (RegPath.atSlot run.regStart run.slotI (n + 1)).p := by
    rw [← h, ← regPath_state]
    rfl
  have hstep : (RegPath.atSlot run.regStart run.slotI (n + 1)).p =
      (RegPath.atSlot run.regStart run.slotI n).p.step true (!run.issued n) (run.slotI n).line := by
    rw [issued, RegPath.issued, Bool.not_not]
    rfl
  rw [hp, hstep]
  cases run.issued n <;> exact ⟨rfl, rfl⟩

/-! ### Reads -/

section Reads

/-- After the reset no write is under way. -/
theorem empty_regStart {bankA bankB : Fin 21 → BitVec 32}
    (cleared : run.regs = RegisterFile.reset bankA bankB) : run.regStart.Empty := by
  have hregs : run.regStart.regs = RegisterFile.reset bankA bankB := cleared
  constructor
  · rfl
  · rfl
  · rfl
  · rfl
  · rw [hregs]
    rfl
  · rw [hregs]
    rfl

theorem lineOk_regPathI (t : ℕ) : RegPath.LineOk (run.regPathI t).line := lineOk_decodeTable _ _ _

theorem free_of_issued (issue : run.issued n = true) :
    (RegPath.atSlot run.regStart run.slotI n).nextIdStall (run.slotI n) = false := by
  rwa [issued, RegPath.issued, Bool.not_eq_true'] at issue

variable {bankA bankB : Fin 21 → BitVec 32} (cleared : run.regs = RegisterFile.reset bankA bankB)
include cleared

/-- A port reads in program order, if the load that ends too late for it writes
another register. -/
theorem dout_eq (slot : run.slot t = true) (h : run.slots t = n + 1) (port : ReadPort) {r : Regnum}
    (addr : PortAddr 21 port r)
    (conf : (RegPath.atSlot run.regStart run.slotI n).p.wb1Stall.wrregW = true →
      (RegPath.atSlot run.regStart run.slotI n).p.wb1.regnumW ≠ r) :
    (run.state t).data.regs.dout
        (wbPipe (run.state t).data.this (Cpu.ctrl run.coproDecode (run.state t))) port r =
      run.programRegs port n r := by
  have ok : ∀ k, RegPath.LineOk (run.slotI k).line := fun k => lineOk_regPathI _
  rw [programRegs, ← RegPath.dout_eq_programOrder port (empty_regStart cleared) ok addr n conf, ← h,
    ← regPath_state, slotI_slots slot]
  rfl

/-- The line in the execute stage reads on the X bus what the lines before it wrote. -/
theorem regX_eq (slot : run.slot t = true) (h : run.slots t = n + 1) (issue : run.issued n = true)
    (sel : (run.slotI n).line.ex.xbusSel = .selReg) :
    regX (run.state t).data.this (run.state t).data.regs (Cpu.ctrl run.coproDecode (run.state t)) =
      run.programRegs .a n (run.slotI n).line.ex.regnumX := by
  have num : (Cpu.ctrl run.coproDecode (run.state t)).reg.numX = (run.slotI n).line.ex.regnumX :=
    congrArg PipelineEx.regnumX (ex1_eq h).1
  rw [regX, num]
  exact dout_eq cleared slot h .a ⟨(lineOk_regPathI _).rangeX sel, nofun⟩
    fun load => ((RegPath.not_conflict (free_of_issued issue) load).1 sel).symm

theorem regY_eq (slot : run.slot t = true) (h : run.slots t = n + 1) (issue : run.issued n = true)
    (sel : (run.slotI n).line.ex.ybusSel = .selReg) :
    regY (run.state t).data.this (run.state t).data.regs (Cpu.ctrl run.coproDecode (run.state t)) =
      run.programRegs .b n (run.slotI n).line.ex.regnumY := by
  have num : (Cpu.ctrl run.coproDecode (run.state t)).reg.numY = (run.slotI n).line.ex.regnumY :=
    congrArg PipelineEx.regnumY (ex1_eq h).1
  rw [regY, num]
  exact dout_eq cleared slot h .b ⟨(lineOk_regPathI _).rangeY sel, nofun⟩
    fun load => ((RegPath.not_conflict (free_of_issued issue) load).2.1 sel).symm

theorem reg0_eq (slot : run.slot t = true) (h : run.slots t = n + 1) (issue : run.issued n = true)
    (sel : (run.slotI n).line.ex.aluinySel = .selR0) :
    reg0 (run.state t).data.this (run.state t).data.regs (Cpu.ctrl run.coproDecode (run.state t)) =
      run.programRegs .zero n 0 :=
  dout_eq cleared slot h .zero ⟨by decide, fun _ => rfl⟩
    fun load => (RegPath.not_conflict (free_of_issued issue) load).2.2.2 sel

end Reads

end CpuRun

end JCore
