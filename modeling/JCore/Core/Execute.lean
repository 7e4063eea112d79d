import JCore.Core.Reads
import JCore.Isa.Machine

/-!
# The execute stage

A line that is issued in one slot executes in the next one. By then the registers and
SR may still be on their way: what the line computes is nevertheless what it would
compute after all lines before it, one at a time. A line during which SR is being
loaded does not look at it.

## Main definitions

* `CpuRun.Executes`: a line is issued in one slot and executes in the next one

## Main results

* `CpuRun.Executes.programRegs_eq`, `CpuRun.Executes.programSr_eq`: the registers and SR
  after the line
* `CpuRun.Executes.maAd_eq`, `CpuRun.Executes.maDw_eq`: its request of the data bus
-/

namespace JCore

open Datapath DecodeTable RegisterFile

/-! ### Lines -/

/-- The line does not read SR. -/
def srBlind (line : BitVec 75) : Bool :=
  ybusSel line != .selSr && aluinxSel line != .selRotcl && !arithCiEn line &&
    arithSrFunc line != .div1 && shiftfunc line != .rotc

/-- While SR is being loaded no line reads it. -/
theorem srBlind_of_wrsrW (addr : BitVec 8) (h : wrsrW (microcodeLine addr) = true) :
    srBlind (microcodeLine (addr + 1)) = true ∧ srBlind (microcodeLine (addr + 2)) = true := by
  have test := forall_addr (p := fun addr => !wrsrW (microcodeLine addr) ||
      (srBlind (microcodeLine (addr + 1)) && srBlind (microcodeLine (addr + 2))))
    (by decide +kernel) addr
  rw [h, Bool.not_true, Bool.false_or, Bool.and_eq_true] at test
  exact test

namespace SrPath

variable {coproDecode : Bool} {s : SrPath} {u : ℕ → SrPathI} {n : ℕ}

/-- Behind a line that loads SR the next one of its operation is presented. -/
theorem op_of_load1 (empty : s.dec.pipeline = pipelineReset) (load : load1 coproDecode s u n = true) :
    ∃ addr, wrsrW (microcodeLine addr) = true ∧
      Decoder.boundary (atSlot coproDecode s u n).dec = false ∧
      (atSlot coproDecode s u n).dec.core.op.addr = addr + 1 := by
  cases n with
  | zero =>
    rw [load1, atSlot, trace_zero, empty] at load
    exact absurd load Bool.false_ne_true
  | succ n =>
    rw [load1_succ, Bool.and_eq_true] at load
    obtain ⟨go, wr⟩ := load
    have free : Decoder.romStall (atSlot coproDecode s u n).dec { (u n).decI with slot := true }
        (srC coproDecode (atSlot coproDecode s u n) (u n)).t = false := by
      rw [issued, Bool.not_eq_true'] at go
      exact go
    have line : wrsrW (microcodeLine (Decoder.romOp (atSlot coproDecode s u n).dec
        { (u n).decI with slot := true }).addr) = true := wr
    refine ⟨_, line, ?_, ?_⟩
    · rw [atSlot, trace_succ, ← atSlot, slotStep, Decoder.boundary_romStep rfl]
      have disp := (srLoad_of_wrsrW _ line).dispatch
        (srC coproDecode (atSlot coproDecode s u n) (u n)).t
      exact (congrArg _ disp).trans (Bool.and_false _)
    · rw [atSlot, trace_succ, ← atSlot, slotStep, Decoder.core_romStep rfl, free]
      rfl

/-- Later that one or the one behind it is presented. -/
theorem op_of_load2 (empty : s.dec.pipeline = pipelineReset) (load : load2 coproDecode s u n = true) :
    ∃ addr, wrsrW (microcodeLine addr) = true ∧
      Decoder.boundary (atSlot coproDecode s u n).dec = false ∧
      ((atSlot coproDecode s u n).dec.core.op.addr = addr + 1 ∨
        (atSlot coproDecode s u n).dec.core.op.addr = addr + 2) := by
  cases n with
  | zero =>
    rw [load2, atSlot, trace_zero, empty] at load
    exact absurd load Bool.false_ne_true
  | succ n =>
    rw [load2_succ] at load
    obtain ⟨addr, wr, inside, here⟩ := op_of_load1 empty load
    have op : Decoder.romOp (atSlot coproDecode s u n).dec { (u n).decI with slot := true } =
        (atSlot coproDecode s u n).dec.core.op := Decoder.romOp_of_not_boundary inside
    refine ⟨addr, wr, ?_, ?_⟩
    · rw [atSlot, trace_succ, ← atSlot, slotStep, Decoder.boundary_romStep rfl]
      have disp := (srLoad_of_wrsrW _ wr).dispatch1 (srC coproDecode (atSlot coproDecode s u n) (u n)).t
      rw [← here, ← op] at disp
      exact (congrArg _ disp).trans (Bool.and_false _)
    · rw [atSlot, trace_succ, ← atSlot, slotStep, Decoder.core_romStep rfl, op]
      cases Decoder.romStall (atSlot coproDecode s u n).dec { (u n).decI with slot := true }
        (srC coproDecode (atSlot coproDecode s u n) (u n)).t with
      | true => exact .inl here
      | false =>
        refine .inr ?_
        show (atSlot coproDecode s u n).dec.core.op.addr + 1 = _
        rw [here, BitVec.add_assoc]
        rfl

/-- While SR is being loaded the line presented neither reads nor updates it. -/
theorem blind_of_load (empty : s.dec.pipeline = pipelineReset)
    (load : load1 coproDecode s u n = true ∨ load2 coproDecode s u n = true) (i : DecoderI) :
    srBlind (microcodeLine (Decoder.romOp (atSlot coproDecode s u n).dec i).addr) = true ∧
      srFree (microcodeLine (Decoder.romOp (atSlot coproDecode s u n).dec i).addr) = true := by
  refine ⟨?_, ((apart_atSlot coproDecode s u empty n).free load).1⟩
  rcases load with load | load
  · obtain ⟨addr, wr, inside, here⟩ := op_of_load1 empty load
    rw [Decoder.romOp_of_not_boundary inside, here]
    exact (srBlind_of_wrsrW addr wr).1
  · obtain ⟨addr, wr, inside, here | here⟩ := op_of_load2 empty load
    · rw [Decoder.romOp_of_not_boundary inside, here]
      exact (srBlind_of_wrsrW addr wr).1
    · rw [Decoder.romOp_of_not_boundary inside, here]
      exact (srBlind_of_wrsrW addr wr).2

end SrPath

namespace Line

variable {line : BitVec 75} {t : Bool} {code : BitVec 16} {v : Values} {sr : Sr}

/-- What a line that does not read SR makes of the buses is the same for every SR. -/
structure Blind (line : Line) (code : BitVec 16) (v : Values) (sr : Sr) : Prop where
  y : line.y code { v with sr := sr } = line.y code v
  z : line.z code { v with sr := sr } = line.z code v

theorem blind_of_srBlind (h : srBlind line = true) : Blind (ofRom line t) code v sr := by
  simp only [srBlind, Bool.and_eq_true, bne_iff_ne, ne_eq, Bool.not_eq_true'] at h
  obtain ⟨⟨⟨⟨hy, hin⟩, hci⟩, hdiv⟩, hrot⟩ := h
  have x : (ofRom line t).x code { v with sr := sr } = (ofRom line t).x code v := rfl
  have y : (ofRom line t).y code { v with sr := sr } = (ofRom line t).y code v := by
    have sel : (ofRom line t).ySel ≠ .selSr := hy
    rw [Line.y, Line.y]
    cases here : (ofRom line t).ySel with
    | selSr => exact absurd here sel
    | _ => rfl
  have inx : (ofRom line t).aluinx code { v with sr := sr } = (ofRom line t).aluinx code v := by
    have sel : (ofRom line t).inx ≠ .selRotcl := hin
    rw [aluinx, aluinx, x]
    cases here : (ofRom line t).inx with
    | selRotcl => exact absurd here sel
    | _ => rfl
  have iny : (ofRom line t).aluiny code { v with sr := sr } = (ofRom line t).aluiny code v := by
    rw [aluiny, aluiny, y]
  have ci : (ofRom line t).arithCi = false := hci
  have noDiv : (ofRom line t).arithSr ≠ .div1 := hdiv
  have noRot : (ofRom line t).shift ≠ .rotc := hrot
  refine ⟨y, ?_⟩
  rw [z, z, arithOut, arithOut, func, func, if_neg noDiv, if_neg noDiv, logicOut, logicOut, inx, iny,
    x, y, ci, Bool.false_and, Bool.false_and]
  cases here : (ofRom line t).zSel with
  | selShift =>
    -- only a rotation through T looks at it
    have carry : ∀ (a : BitVec 32) (b : BitVec 6) (c c' : Bool),
        bshifter a b c (ofRom line t).shift = bshifter (n := 5) a b c' (ofRom line t).shift := by
      intro a b c c'
      simp only [bshifter, calyFcn, noRot, and_false, if_false]
    exact carry _ _ _ _
  | _ => rfl

end Line

/-! ### Buses -/

namespace CpuRun

variable (run : CpuRun)

/-- The line that is presented in clock `p`. -/
def lineAt (p : ℕ) : Line := Line.ofRom (microcodeLine (run.op p).addr) (run.tBcc p)

/-- Its word. -/
def codeAt (p : ℕ) : BitVec 16 := (run.op p).code

/-- The status register's path at the beginning, and its inputs in the slots. -/
def srStart : SrPath := Cpu.srPath (Cpu.reset run.regs)

noncomputable def srInputs : ℕ → SrPathI :=
  Cpu.srInputs run.coproDecode (Cpu.reset run.regs) run.clk

/-- What a line of clock `p` reads that executes in clock `t`. -/
noncomputable def values (p t : ℕ) : Values where
  pc := (run.state t).data.this.pc
  regs := fun port => run.programRegs port (run.slots p)
  sr := run.programSr (run.slots p)
  mach := (run.clk t).mach
  macl := (run.clk t).macl

/-- The line presented in clock `p` is issued, and clock `t` is the slot after. -/
structure Executes (p t : ℕ) : Prop where
  presented : run.slot p = true
  issued : run.stalled p = false
  slot : run.slot t = true
  next : run.slots t = run.slots p + 1
  override : (run.state t).data.this.ybusOverride0.en = false

variable {run} {p t : ℕ}

theorem srPath_eq (t : ℕ) : Cpu.srPath (run.state t) =
    SrPath.atSlot run.coproDecode run.srStart run.srInputs (run.slots t) := Cpu.srPath_run _ _ _ t

theorem srInputs_eq (slot : run.slot t = true) :
    run.srInputs (run.slots t) = Cpu.srPathI run.coproDecode (run.state t) (run.clk t) :=
  Cpu.srInputs_slotCount slot

/-- The status register's path presents the same lines. -/
theorem sr_op (slot : run.slot p = true) :
    Decoder.romOp (SrPath.atSlot run.coproDecode run.srStart run.srInputs (run.slots p)).dec
      (run.srInputs (run.slots p)).decI = run.op p := by
  rw [← srPath_eq, srInputs_eq slot]
  rfl

theorem sr_tAt (slot : run.slot p = true) :
    SrPath.tAt run.coproDecode run.srStart run.srInputs (run.slots p) = run.tBcc p := by
  have sr : Cpu.srC run.coproDecode (run.state p) (run.clk p) =
      SrPath.srC run.coproDecode (Cpu.srPath (run.state p))
        (Cpu.srPathI run.coproDecode (run.state p) (run.clk p)) := if_pos slot
  rw [SrPath.tAt, ← srPath_eq, srInputs_eq slot, ← sr]
  rfl

theorem sr_lineAt (slot : run.slot p = true) :
    SrPath.lineAt run.coproDecode run.srStart run.srInputs (run.slots p) =
      decodeTable (run.op p) (run.tBcc p) (run.stalled p) := by
  rw [SrPath.lineAt, sr_tAt slot, ← srPath_eq, srInputs_eq slot]
  rfl

theorem sr_issued (slot : run.slot p = true) :
    SrPath.issued run.coproDecode run.srStart run.srInputs (run.slots p) = !run.stalled p := by
  rw [SrPath.issued, sr_tAt slot, ← srPath_eq, srInputs_eq slot]
  rfl

theorem programSr_succ (n : ℕ) : run.programSr (n + 1) =
    SrPath.lineSr run.coproDecode run.srStart run.srInputs n (run.programSr n) := rfl

/-- A line that leaves SR alone. -/
theorem lineSr_of_free (slot : run.slot p = true)
    (free : srFree (microcodeLine (run.op p).addr) = true) :
    SrPath.lineSr run.coproDecode run.srStart run.srInputs (run.slots p)
      (run.programSr (run.slots p)) = run.programSr (run.slots p) :=
  SrPath.lineSr_of_free _ (by rw [sr_op slot]; exact free)

namespace Executes

variable (h : run.Executes p t)
include h

theorem line_eq : (run.slotI (run.slots p)).line =
    decodeTable (run.op p) (run.tBcc p) (run.stalled p) := line_slots h.presented

theorem issued_eq : run.issued (run.slots p) = true := by
  rw [issued_slots h.presented, h.issued, Bool.not_false]

theorem ex1_eq : (run.state t).dec.pipeline.ex1 =
    (decodeTable (run.op p) (run.tBcc p) (run.stalled p)).ex := by
  rw [(CpuRun.ex1_eq h.next).1, h.line_eq]

theorem ex1Stall_eq : (run.state t).dec.pipeline.ex1Stall =
    (decodeTable (run.op p) (run.tBcc p) (run.stalled p)).exStall := by
  rw [(CpuRun.ex1_eq h.next).2, h.issued_eq, if_pos rfl, h.line_eq]

variable {bankA bankB : Fin 21 → BitVec 32} (cleared : run.regs = RegisterFile.reset bankA bankB)
include cleared

theorem xbus_eq : (Cpu.processI run.coproDecode (run.state t) (run.clk t)).xbus =
    (run.lineAt p).x (run.codeAt p) (run.values p t) := by
  have sel : (Cpu.ctrl run.coproDecode (run.state t)).buses.xSel = (run.lineAt p).xSel :=
    congrArg PipelineEx.xbusSel h.ex1_eq
  have imm : (Cpu.ctrl run.coproDecode (run.state t)).buses.immVal =
      (run.lineAt p).immVal (run.codeAt p) := congrArg PipelineEx.immVal h.ex1_eq
  show xbus _ _ _ = _
  rw [xbus, Line.x, sel, imm]
  cases here : (run.lineAt p).xSel with
  | selReg =>
    have reg : (run.slotI (run.slots p)).line.ex.xbusSel = .selReg := by
      rw [h.line_eq]
      exact here
    refine (regX_eq cleared h.slot h.next h.issued_eq reg).trans ?_
    rw [h.line_eq]
    rfl
  | _ => rfl

/-- What the stage reads, with SR as it stands. -/
theorem ybus_eq : (Cpu.processI run.coproDecode (run.state t) (run.clk t)).ybus =
    (run.lineAt p).y (run.codeAt p) { run.values p t with sr := (run.state t).data.this.sr } := by
  have sel : (Cpu.ctrl run.coproDecode (run.state t)).buses.ySel = (run.lineAt p).ySel :=
    congrArg PipelineEx.ybusSel h.ex1_eq
  have imm : (Cpu.ctrl run.coproDecode (run.state t)).buses.immVal =
      (run.lineAt p).immVal (run.codeAt p) := congrArg PipelineEx.immVal h.ex1_eq
  show ybus _ _ _ _ = _
  rw [ybus, h.override, if_neg Bool.false_ne_true, ybusTemp, Line.y, sel, imm]
  cases here : (run.lineAt p).ySel with
  | selReg =>
    have reg : (run.slotI (run.slots p)).line.ex.ybusSel = .selReg := by
      rw [h.line_eq]
      exact here
    refine (regY_eq cleared h.slot h.next h.issued_eq reg).trans ?_
    rw [h.line_eq]
    rfl
  | _ => rfl

theorem aluinx_eq : aluinx (run.state t).data.this (run.state t).data.regs
      (Cpu.ctrl run.coproDecode (run.state t)) =
    (run.lineAt p).aluinx (run.codeAt p)
      { run.values p t with sr := (run.state t).data.this.sr } := by
  have sel : (Cpu.ctrl run.coproDecode (run.state t)).func.alu.inxSel = (run.lineAt p).inx :=
    congrArg PipelineEx.aluinxSel h.ex1_eq
  have x : xbus _ _ _ = _ := h.xbus_eq cleared
  rw [aluinx, Line.aluinx, sel, x]
  rfl

theorem aluiny_eq : aluiny (run.state t).data.this (run.state t).data.regs
      (Cpu.ctrl run.coproDecode (run.state t)) (run.clk t).datapathI =
    (run.lineAt p).aluiny (run.codeAt p)
      { run.values p t with sr := (run.state t).data.this.sr } := by
  have sel : (Cpu.ctrl run.coproDecode (run.state t)).func.alu.inySel = (run.lineAt p).iny :=
    congrArg PipelineEx.aluinySel h.ex1_eq
  have imm : (Cpu.ctrl run.coproDecode (run.state t)).buses.immVal =
      (run.lineAt p).immVal (run.codeAt p) := congrArg PipelineEx.immVal h.ex1_eq
  have y : ybus _ _ _ _ = _ := h.ybus_eq cleared
  rw [aluiny, Line.aluiny, sel, y, imm]
  cases here : (run.lineAt p).iny with
  | selR0 =>
    have reg : (run.slotI (run.slots p)).line.ex.aluinySel = .selR0 := by
      rw [h.line_eq]
      exact here
    exact reg0_eq cleared h.slot h.next h.issued_eq reg
  | _ => rfl

/-- The buses in the execute stage, with SR as it stands. -/
structure Buses (run : CpuRun) (p t : ℕ) (v : Values) : Prop where
  x : (Cpu.processI run.coproDecode (run.state t) (run.clk t)).xbus = (run.lineAt p).x (run.codeAt p) v
  y : (Cpu.processI run.coproDecode (run.state t) (run.clk t)).ybus = (run.lineAt p).y (run.codeAt p) v
  arithFunc : (Cpu.processI run.coproDecode (run.state t) (run.clk t)).arithFunc = (run.lineAt p).func v
  arithOut : (Cpu.processI run.coproDecode (run.state t) (run.clk t)).arithOut =
    (run.lineAt p).arithOut (run.codeAt p) v
  logicOut : (Cpu.processI run.coproDecode (run.state t) (run.clk t)).logicOut =
    (run.lineAt p).logicOut (run.codeAt p) v
  sfto : (Cpu.processI run.coproDecode (run.state t) (run.clk t)).sfto =
    (run.lineAt p).shifted (run.codeAt p) v
  z : (run.lineAt p).zSel ≠ .selWbus → (Cpu.processI run.coproDecode (run.state t) (run.clk t)).zbus =
    (run.lineAt p).z (run.codeAt p) v

theorem buses : Buses run p t { run.values p t with sr := (run.state t).data.this.sr } := by
  have x := h.xbus_eq cleared
  have y := h.ybus_eq cleared
  have x' : xbus _ _ _ = _ := x
  have y' : ybus _ _ _ _ = _ := y
  have func : (Cpu.ctrl run.coproDecode (run.state t)).func.arith =
      { func := (run.lineAt p).arithFunc, ciEn := (run.lineAt p).arithCi, sr := (run.lineAt p).arithSr } := by
    show (run.state t).dec.pipeline.func.arith = _
    rw [Pipeline.func, h.ex1_eq]
    rfl
  have arithFunc : Datapath.arithFunc (run.state t).data.this (Cpu.ctrl run.coproDecode (run.state t)) =
      (run.lineAt p).func { run.values p t with sr := (run.state t).data.this.sr } := by
    rw [Datapath.arithFunc, func]
    rfl
  have arith : arithOut (run.state t).data.this (run.state t).data.regs
        (Cpu.ctrl run.coproDecode (run.state t)) (run.clk t).datapathI =
      (run.lineAt p).arithOut (run.codeAt p)
        { run.values p t with sr := (run.state t).data.this.sr } := by
    rw [arithOut, Line.arithOut, h.aluinx_eq cleared, h.aluiny_eq cleared, arithFunc, func]
  have logic : logicOut (run.state t).data.this (run.state t).data.regs
        (Cpu.ctrl run.coproDecode (run.state t)) (run.clk t).datapathI =
      (run.lineAt p).logicOut (run.codeAt p)
        { run.values p t with sr := (run.state t).data.this.sr } := by
    have sel : (Cpu.ctrl run.coproDecode (run.state t)).func.logicFunc = (run.lineAt p).logicFunc :=
      congrArg PipelineEx.logicFunc h.ex1_eq
    rw [logicOut, Line.logicOut, h.aluinx_eq cleared, h.aluiny_eq cleared, sel]
  refine ⟨x, y, arithFunc, arith, logic, ?_, fun noLoad => ?_⟩
  · show sfto _ _ _ _ = _
    rw [sfto, x', y']
    rfl
  · have sel : (Cpu.ctrl run.coproDecode (run.state t)).buses.zSel = (run.lineAt p).zSel :=
      congrArg PipelineExStall.zbusSel h.ex1Stall_eq
    have shift : (Cpu.ctrl run.coproDecode (run.state t)).func.shift = (run.lineAt p).shift :=
      congrArg PipelineExStall.shiftfunc h.ex1Stall_eq
    have manip : (Cpu.ctrl run.coproDecode (run.state t)).func.alu.manip = (run.lineAt p).manip :=
      congrArg PipelineEx.alumanip h.ex1_eq
    show Datapath.zbus _ _ _ _ = _
    rw [Datapath.zbus, Line.z, sel, shift, manip, x', y', arith, logic]
    cases here : (run.lineAt p).zSel with
    | selWbus => exact absurd here noLoad
    | _ => rfl

omit cleared in
/-- SR in the execute stage is that of program order, or the line does not read it. -/
theorem sr_eq_or_blind : (run.state t).data.this.sr = run.programSr (run.slots p) ∨
    (srBlind (microcodeLine (run.op p).addr) = true ∧
      srFree (microcodeLine (run.op p).addr) = true) := by
  have empty : run.srStart.dec.pipeline = pipelineReset := rfl
  have here : Cpu.srPath (run.state t) = _ := srPath_eq t
  rw [h.next] at here
  by_cases load :
      SrPath.load1 run.coproDecode run.srStart run.srInputs (run.slots p) = true ∨
        SrPath.load2 run.coproDecode run.srStart run.srInputs (run.slots p) = true
  · right
    have blind := SrPath.blind_of_load empty load (Cpu.decoderI (run.state p) (run.clk p))
    rw [← srPath_eq] at blind
    exact blind
  · left
    rw [not_or, Bool.not_eq_true, Bool.not_eq_true] at load
    have inOrder := (SrPath.inOrder_atSlot run.coproDecode _
      run.srInputs empty (run.slots p)).idle load.1 load.2
    rw [← here] at inOrder
    exact inOrder

/-- The buses are those of program order as far as the line looks at them. -/
theorem operands_eq : (Cpu.processI run.coproDecode (run.state t) (run.clk t)).xbus =
      (run.lineAt p).x (run.codeAt p) (run.values p t) ∧
    (Cpu.processI run.coproDecode (run.state t) (run.clk t)).ybus =
      (run.lineAt p).y (run.codeAt p) (run.values p t) ∧
    ((run.lineAt p).zSel ≠ .selWbus →
      (Cpu.processI run.coproDecode (run.state t) (run.clk t)).zbus =
        (run.lineAt p).z (run.codeAt p) (run.values p t)) := by
  have buses := h.buses cleared
  have same : Line.Blind (run.lineAt p) (run.codeAt p) (run.values p t)
      (run.state t).data.this.sr := by
    rcases h.sr_eq_or_blind with sr | ⟨blind, -⟩
    · rw [sr]
      exact ⟨rfl, rfl⟩
    · exact Line.blind_of_srBlind blind
  exact ⟨buses.x, buses.y.trans same.y, fun noLoad => (buses.z noLoad).trans same.z⟩

/-- What the line writes on the Z bus reaches the registers in its place. -/
theorem programRegs_eq (seq : Sequential (microcodeLine (run.op p).addr))
    (noLoad : wrregW (microcodeLine (run.op p).addr) = false) (port : ReadPort) :
    run.programRegs port (run.slots p + 1) =
      applyWrite (run.programRegs port (run.slots p))
        ((run.lineAt p).write (run.codeAt p) (run.values p t)) := by
  have noW : (run.lineAt p).zSel ≠ .selWbus := seq.zbus
  have wrpr : (Cpu.ctrl run.coproDecode (run.state t)).wrpr = (run.lineAt p).wrprPc :=
    congrArg PipelineExStall.wrprPc h.ex1Stall_eq
  have zbus : (run.slotI (run.slots p + 1)).zbus =
      if (run.lineAt p).wrprPc then (run.values p t).pc
      else (run.lineAt p).z (run.codeAt p) (run.values p t) := by
    rw [← h.next, slotI_slots h.slot, ← (h.operands_eq cleared).2.2 noW, ← wrpr]
    rfl
  have w : (run.slotI (run.slots p)).line.wbStall.wrregW = false := by
    rw [h.line_eq]
    exact noLoad
  have z : (run.slotI (run.slots p)).line.exStall.wrregZ = (run.lineAt p).wrregZ := by
    rw [h.line_eq]
    rfl
  have num : (run.slotI (run.slots p)).line.ex.regnumZ = (run.lineAt p).regZ (run.codeAt p) := by
    rw [h.line_eq]
    rfl
  have issue := h.issued_eq
  rw [CpuRun.issued] at issue
  have write : RegPath.lineWrite run.regStart run.slotI (run.slots p) =
      (run.lineAt p).write (run.codeAt p) (run.values p t) := by
    rw [RegPath.lineWrite, issue, if_pos rfl, w, z, num, zbus, Line.write]
    exact if_congr Iff.rfl rfl (if_neg Bool.false_ne_true)
  rw [programRegs, RegPath.programOrder, afterWrites_succ, write]
  rfl

omit cleared in
/-- A load reaches its register in its place as well. -/
theorem programRegs_eq_of_load (load : wrregW (microcodeLine (run.op p).addr) = true)
    (port : ReadPort) : run.programRegs port (run.slots p + 1) =
      applyWrite (run.programRegs port (run.slots p))
        (some ((run.lineAt p).regW (run.codeAt p), (run.slotI (run.slots p + 3)).wbus)) := by
  have w : (run.slotI (run.slots p)).line.wbStall.wrregW = true := by
    rw [h.line_eq]
    exact load
  have z : (run.slotI (run.slots p)).line.exStall.wrregZ = false := by
    have one := oneBus_microcodeLine (run.op p).addr
    rw [load, Bool.and_true] at one
    rw [h.line_eq]
    exact one
  have num : (run.slotI (run.slots p)).line.wb.regnumW = (run.lineAt p).regW (run.codeAt p) := by
    rw [h.line_eq]
    rfl
  have issue := h.issued_eq
  rw [CpuRun.issued] at issue
  have write : RegPath.lineWrite run.regStart run.slotI (run.slots p) =
      some ((run.lineAt p).regW (run.codeAt p), (run.slotI (run.slots p + 3)).wbus) := by
    rw [RegPath.lineWrite, issue, if_pos rfl, w, z, if_neg Bool.false_ne_true, if_pos rfl, num]
  rw [programRegs, RegPath.programOrder, afterWrites_succ, write]
  rfl

omit h cleared in
/-- The update of SR in the execute stage. -/
theorem nextSr_alone {ilevel : BitVec 4}
    (buses : Buses run p t { run.values p t with sr := run.programSr (run.slots p) })
    (noW : (run.lineAt p).zSel ≠ .selWbus) (noLoad : (run.lineAt p).srSel ≠ .selWbus)
    (noMask : (run.lineAt p).srSel ≠ .selIntMask) :
    nextSr (SrPath.alone run.coproDecode (decodeTable (run.op p) (run.tBcc p) (run.stalled p)) ilevel)
        (Cpu.processI run.coproDecode (run.state t) (run.clk t)) (run.programSr (run.slots p)) =
      (run.lineAt p).sr (run.codeAt p) (run.values p t) := by
  have sel : (SrPath.alone run.coproDecode (decodeTable (run.op p) (run.tBcc p) (run.stalled p))
      ilevel).sr = { sel := (run.lineAt p).srSel, t := (run.lineAt p).tSel, ilevel := ilevel } :=
    SrPath.sr_alone _ _
  have func : (SrPath.alone run.coproDecode (decodeTable (run.op p) (run.tBcc p) (run.stalled p))
      ilevel).func.arith.sr = (run.lineAt p).arithSr := rfl
  have logic : (SrPath.alone run.coproDecode (decodeTable (run.op p) (run.tBcc p) (run.stalled p))
      ilevel).func.logicSr = (run.lineAt p).logicSr := rfl
  rw [nextSr, Line.sr, sel, func, logic, buses.x, buses.y, buses.arithOut, buses.logicOut,
    buses.arithFunc, buses.sfto, buses.z noW]
  cases here : (run.lineAt p).srSel with
  | selWbus => exact absurd here noLoad
  | selIntMask => exact absurd here noMask
  | _ => rfl

/-- SR after a line that updates it in the execute stage. -/
theorem programSr_eq (seq : Sequential (microcodeLine (run.op p).addr))
    (noLoad : wrsrW (microcodeLine (run.op p).addr) = false) :
    run.programSr (run.slots p + 1) = (run.lineAt p).sr (run.codeAt p) (run.values p t) := by
  rw [programSr_succ]
  rcases h.sr_eq_or_blind with same | ⟨-, free⟩
  · have buses := h.buses cleared
    rw [same] at buses
    have next : (run.srInputs (run.slots p + 1)).v =
        Cpu.processI run.coproDecode (run.state t) (run.clk t) := by
      rw [← h.next]
      exact congrArg SrPathI.v (Cpu.srInputs_slotCount h.slot)
    have load : (decodeTable (run.op p) (run.tBcc p) (run.stalled p)).wbStall.wrsrW = false := noLoad
    rw [SrPath.lineSr, sr_issued h.presented, h.issued, sr_lineAt h.presented, load, next]
    exact nextSr_alone buses seq.zbus seq.srWbus seq.srMask
  · have prev : (run.lineAt p).srSel = .selPrev := (SrPath.srFree_iff.mp free).1
    rw [Line.sr, prev]
    exact lineSr_of_free h.presented free

omit cleared in
/-- A load of SR takes its place too. -/
theorem programSr_eq_of_load (load : wrsrW (microcodeLine (run.op p).addr) = true) :
    run.programSr (run.slots p + 1) = toSr (run.srInputs (run.slots p + 3)).v.wbus := by
  have line : (decodeTable (run.op p) (run.tBcc p) (run.stalled p)).wbStall.wrsrW = true := load
  rw [programSr_succ, SrPath.lineSr, sr_issued h.presented, h.issued, sr_lineAt h.presented, line]
  rfl

/-! ### The data bus -/

omit cleared in
/-- The control of the data bus while the line executes. -/
theorem mem_eq : run.mem t =
    { issue := (run.lineAt p).maIssue, wr := (run.lineAt p).maWr,
      lock := memLock (microcodeLine (run.op p).addr), size := (run.lineAt p).size,
      addrSel := (run.lineAt p).addrSel, wdataSel := (run.lineAt p).wdataSel } := by
  rw [mem, Pipeline.mem, h.ex1_eq, h.ex1Stall_eq]
  rfl

/-- The address and the datum of its request. -/
theorem maAd_eq (noLoad : (run.lineAt p).zSel ≠ .selWbus) :
    maAd (Cpu.ctrl run.coproDecode (run.state t))
        (Cpu.processI run.coproDecode (run.state t) (run.clk t)) =
      (run.lineAt p).addr (run.codeAt p) (run.values p t) := by
  obtain ⟨x, y, z⟩ := h.operands_eq cleared
  have sel : (Cpu.ctrl run.coproDecode (run.state t)).mem.addrSel = (run.lineAt p).addrSel :=
    congrArg MemCtrl.addrSel h.mem_eq
  rw [maAd, sel, x, y, z noLoad]
  cases here : (run.lineAt p).addrSel <;> rw [Line.addr, here]

theorem maDw_eq (noLoad : (run.lineAt p).zSel ≠ .selWbus) :
    maDw (Cpu.ctrl run.coproDecode (run.state t))
        (Cpu.processI run.coproDecode (run.state t) (run.clk t)) =
      (run.lineAt p).wdata (run.codeAt p) (run.values p t) := by
  obtain ⟨-, y, z⟩ := h.operands_eq cleared
  have sel : (Cpu.ctrl run.coproDecode (run.state t)).mem.wdataSel = (run.lineAt p).wdataSel :=
    congrArg MemCtrl.wdataSel h.mem_eq
  rw [maDw, sel, y, z noLoad]
  cases here : (run.lineAt p).wdataSel <;> rw [Line.wdata, here]

end Executes

end CpuRun

end JCore
