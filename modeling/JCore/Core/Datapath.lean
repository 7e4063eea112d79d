import JCore.Core.RegisterFile
import JCore.Decode.Predecode
import JCore.Lib.Trace
import JCore.Pack.Decode

/-!
# The data path

The entity `datapath`: the internal buses between the register file and the
functional units, and the clocked process that carries out bus transactions,
debug commands and the updates of PC and SR. The process is cut at its own
comments into functions on the register record; `process` runs them in the
order of the source.

## Main definitions

* `Datapath.xbus`, `Datapath.ybus`, `Datapath.zbus`: the internal buses
* `Datapath.process`: the clocked process
* `Datapath.step`: one clock of the process and the register file
* `Datapath.run`: the states on a sequence of inputs
-/

namespace JCore

inductive DebugState where
  | run | ready | awaitIf | awaitBreak
  deriving DecidableEq, Repr

/-- A value for the Y bus, in place of what the decoder selects. -/
structure BusVal where
  en : Bool
  d : BitVec 32
  deriving DecidableEq, Repr

def busValReset : BusVal := { en := false, d := 0 }

/-- The register record of the data path. -/
@[ext] structure DatapathReg where
  pc : BitVec 32
  sr : Sr
  macS : Bool
  dataOSize : MemSize
  dataOLock : Bool
  dataO : CpuDataO
  instO : CpuInstructionO
  pcInc : BitVec 32
  ifDr : BitVec 16
  ifDrNext : BitVec 16
  illegalDelaySlot : Bool
  illegalInstr : Bool
  ifEn : Bool
  mDr : BitVec 32
  mDrNext : BitVec 32
  mEn : Bool
  slot : Bool
  enterDebug : BitVec 4
  oldDebug : Bool
  stopPcInc : Bool
  debugState : DebugState
  debugO : CpuDebugO
  ybusOverride2 : BusVal
  ybusOverride1 : BusVal
  ybusOverride0 : BusVal
  deriving DecidableEq, Repr

def datapathReset : DatapathReg :=
  { pc := 0, sr := { t := false, s := false, q := false, m := false, intMask := 0b1111 },
    macS := false, dataOSize := .byte, dataOLock := false, dataO := nullDataO, instO := nullInstO,
    pcInc := 0, ifDr := 0, ifDrNext := 0, illegalDelaySlot := false, illegalInstr := false,
    ifEn := false, mDr := 0, mDrNext := 0, mEn := false, slot := true, enterDebug := 0,
    oldDebug := false, stopPcInc := false, debugState := .run,
    debugO := { ack := false, d := 0, rdy := false }, ybusOverride2 := busValReset,
    ybusOverride1 := busValReset, ybusOverride0 := busValReset }

/-- The control signals of the data path that come from the pipeline. -/
structure StageCtrl where
  reg : RegCtrl
  func : FuncCtrl
  sr : SrCtrl
  mem : MemCtrl
  buses : BusesCtrl
  coproc : CoprocCtrl
  wrZ : Bool
  wrpr : Bool
  deriving DecidableEq, Repr

/-- The control signals that come from the line being decoded. -/
structure DecodeCtrl where
  debug : Bool
  instr : InstrCtrl
  inc : Bool
  sLatch : Bool
  deriving DecidableEq, Repr

/-- The inputs from outside of the CPU, and from the multiplier. -/
structure DatapathI where
  dbI : CpuDataI
  instI : CpuInstructionI
  debugI : CpuDebugI
  copD : BitVec 32
  mach : BitVec 32
  macl : BitVec 32
  deriving DecidableEq, Repr

namespace Datapath

/-! ### Conversions -/

def toSr (a : BitVec 32) : Sr :=
  { m := a.getLsbD 9, q := a.getLsbD 8, intMask := a.extractLsb' 4 4, s := a.getLsbD 1,
    t := a.getLsbD 0 }

def srToSlv (sr : Sr) : BitVec 32 :=
  0#22 ++ BitVec.ofBool sr.m ++ BitVec.ofBool sr.q ++ sr.intMask ++ 0#2 ++ BitVec.ofBool sr.s ++
    BitVec.ofBool sr.t

/-- The request of a memory access. A store copies the datum to every lane and
enables those of its address. -/
def toDataO (mem : MemCtrl) (coproc : CoprocCtrl) (addr data : BitVec 32) : CpuDataO :=
  if mem.issue then
    let r := { nullDataO with en := true, wr := mem.wr, rd := !mem.wr, a := addr }
    if mem.wr then
      match mem.size with
      | .long => { r with d := data, we := 0b1111 }
      | .word =>
        { r with
          we := if addr.getLsbD 1 then 0b0011 else 0b1100
          d := data.extractLsb' 0 16 ++ data.extractLsb' 0 16 }
      | .byte =>
        { r with
          we :=
            match addr.extractLsb' 0 2 with
            | 0b00 => 0b1000
            | 0b01 => 0b0100
            | 0b10 => 0b0010
            | _ => 0b0001
          d :=
            data.extractLsb' 0 8 ++ data.extractLsb' 0 8 ++ data.extractLsb' 0 8 ++
              data.extractLsb' 0 8 }
    else r
  -- a coprocessor load passes the datum without a request
  else if coproc.coprocCmd = .lds then { nullDataO with d := data }
  else nullDataO

def toInstO (instr : InstrCtrl) (addr : BitVec 32) (jp : Bool) : CpuInstructionO :=
  if instr.issue then { en := true, a := addr.extractLsb' 1 31, jp := jp } else nullInstO

/-- The datum of a load, moved to the low end and extended by its sign. -/
def alignReadData (d : BitVec 32) (busO : CpuDataO) (size : MemSize) : BitVec 32 :=
  match size with
  | .byte =>
    match busO.a.extractLsb' 0 2 with
    | 0b00 => (d.extractLsb' 24 8).signExtend 32
    | 0b01 => (d.extractLsb' 16 8).signExtend 32
    | 0b10 => (d.extractLsb' 8 8).signExtend 32
    | _ => (d.extractLsb' 0 8).signExtend 32
  | .word =>
    if busO.a.getLsbD 1 then (d.extractLsb' 0 16).signExtend 32
    else (d.extractLsb' 16 16).signExtend 32
  | .long => d

/-! ### Internal buses -/

section Buses

variable (this : DatapathReg) (regs : RegisterFile 5 21 32) (ctrl : StageCtrl) (i : DatapathI)

/-- The W bus carries the datum of the last load. -/
def wbus : BitVec 32 := this.mDr

def wbPipe : RegPipe 5 32 := { en := ctrl.reg.wrW, data := wbus this, addr := ctrl.reg.numW }

def regX : BitVec 32 := regs.dout (wbPipe this ctrl) .a ctrl.reg.numX

def regY : BitVec 32 := regs.dout (wbPipe this ctrl) .b ctrl.reg.numY

def reg0 : BitVec 32 := regs.dout (wbPipe this ctrl) .zero 0

def xbus : BitVec 32 :=
  match ctrl.buses.xSel with
  | .selReg => regX this regs ctrl
  | .selPc => this.pc
  | .selImm => ctrl.buses.immVal

def ybusTemp : BitVec 32 :=
  match ctrl.buses.ySel with
  | .selReg => regY this regs ctrl
  | .selPc => this.pc
  | .selMach => i.mach
  | .selMacl => i.macl
  | .selSr => srToSlv this.sr
  | .selImm => ctrl.buses.immVal

def ybus : BitVec 32 :=
  if this.ybusOverride0.en then this.ybusOverride0.d else ybusTemp this regs ctrl i

def aluinx : BitVec 32 :=
  match ctrl.func.alu.inxSel with
  | .selFc => (xbus this regs ctrl).extractLsb' 2 30 ++ 0#2
  | .selRotcl => (xbus this regs ctrl).extractLsb' 0 31 ++ BitVec.ofBool this.sr.t
  | .selZero => 0
  | .selXbus => xbus this regs ctrl

def aluiny : BitVec 32 :=
  match ctrl.func.alu.inySel with
  | .selImm => ctrl.buses.immVal
  | .selR0 => reg0 this regs ctrl
  | .selYbus => ybus this regs ctrl i

/-- `DIV1` adds or subtracts as M and Q say. -/
def arithFunc : ArithFunc :=
  if ctrl.func.arith.sr = .div1 then if this.sr.m = this.sr.q then .sub else .add
  else ctrl.func.arith.func

def arithOut : BitVec 33 :=
  arithUnit (aluinx this regs ctrl) (aluiny this regs ctrl i) (arithFunc this ctrl)
    (ctrl.func.arith.ciEn && this.sr.t)

def logicOut : BitVec 32 :=
  logicUnit (aluinx this regs ctrl) (aluiny this regs ctrl i) ctrl.func.logicFunc

def zbus : BitVec 32 :=
  match ctrl.buses.zSel with
  | .selArith => (arithOut this regs ctrl i).extractLsb' 0 32
  | .selLogic => logicOut this regs ctrl i
  | .selShift =>
    bshifter (n := 5) (xbus this regs ctrl)
      (BitVec.ofBool ((ybus this regs ctrl i).getLsbD 31) ++ (ybus this regs ctrl i).extractLsb' 0 5)
      this.sr.t ctrl.func.shift
  | .selManip => manip (xbus this regs ctrl) (ybus this regs ctrl i) ctrl.func.alu.manip
  | .selYbus => ybus this regs ctrl i
  | .selWbus => wbus this

/-- The value of the execute write: PC for a subroutine call, else the Z bus. -/
def gpfZwd : BitVec 32 := if ctrl.wrpr then this.pc else zbus this regs ctrl i

def exPipe0 : RegPipe 5 32 :=
  { en := ctrl.reg.wrZ, data := gpfZwd this regs ctrl i, addr := ctrl.reg.numZ }

/-- The bit that a shift by one place loses. -/
def sfto : Bool :=
  if (ybus this regs ctrl i).getLsbD 31 then (xbus this regs ctrl).getLsbD 0
  else (xbus this regs ctrl).getLsbD 31

def macin1 (sel : Macin1Sel) : BitVec 32 :=
  match sel with
  | .selXbus => xbus this regs ctrl
  | .selZbus => zbus this regs ctrl i
  | .selWbus => wbus this

def macin2 (sel : Macin2Sel) : BitVec 32 :=
  match sel with
  | .selYbus => ybus this regs ctrl i
  | .selZbus => zbus this regs ctrl i
  | .selWbus => wbus this

end Buses

/-! ### The process -/

/-- What the process reads of the combinational logic. -/
structure ProcessI where
  xbus : BitVec 32
  ybus : BitVec 32
  zbus : BitVec 32
  wbus : BitVec 32
  arithOut : BitVec 33
  logicOut : BitVec 32
  arithFunc : ArithFunc
  sfto : Bool
  wrDataO : BitVec 32

section Process

variable (this : DatapathReg) (nextState : DebugState) (ctrl : StageCtrl) (dec : DecodeCtrl)
  (v : ProcessI) (i : DatapathI)

/-- The debug input rose: the instruction `BREAK` has run. -/
def breakRan : Bool :=
  !this.oldDebug && dec.debug &&
    (this.debugState == .run || this.debugState == .awaitBreak)

/-- The debugger asks a running CPU to stop. -/
def breakAsked : Bool :=
  this.debugState == .run && i.debugI.en && i.debugI.cmd == .break

/-- Entering debug mode, and scheduling to enter it. -/
def debugEntry : DatapathReg :=
  { this with
    debugO := { this.debugO with ack := false }
    enterDebug :=
      if breakRan this dec then 0
      else if breakAsked this i then this.enterDebug ||| 0b1000
      else this.enterDebug
    oldDebug := dec.debug }

def debugEntryState : DebugState :=
  if breakRan this dec then .awaitIf
  else if breakAsked this i then .awaitBreak
  else this.debugState

/-- A transaction of the data bus finishes. -/
def dataAcked : Bool := this.dataO.en && i.dbI.ack

def dataDone : DatapathReg :=
  { this with
    mDrNext :=
      if dataAcked this i then alignReadData i.dbI.d this.dataO this.dataOSize else this.mDrNext
    mEn := dataAcked this i || this.mEn
    dataO := if dataAcked this i then nullDataO else this.dataO }

/-- A transaction of the instruction bus finishes. -/
def instAcked : Bool := this.instO.en && i.instI.ack

/-- A debug command is carried out. The instruction bus comes first. -/
def debugCmd (cmd : CpuDebugCmd) : Bool :=
  !instAcked this i && this.debugState == .ready && i.debugI.en && i.debugI.cmd == cmd

/-- A finished instruction fetch, or else a debug command. -/
def instDone : DatapathReg :=
  { this with
    -- a `BREAK` in the ready state does nothing else
    debugO := { this.debugO with ack := debugCmd this i .break || this.debugO.ack }
    ifDrNext :=
      if instAcked this i then i.instI.d
      else if debugCmd this i .insert then i.debugI.ir
      else this.ifDrNext
    ifEn := instAcked this i || debugCmd this i .insert || this.ifEn
    -- a real instruction is fetched when the CPU leaves debug mode
    instO :=
      if instAcked this i then nullInstO
      else if debugCmd this i .step || debugCmd this i .continue then
        toInstO dec.instr this.pc true
      else this.instO
    stopPcInc := debugCmd this i .insert || this.stopPcInc
    ybusOverride2 :=
      if debugCmd this i .insert then { en := i.debugI.dEn, d := i.debugI.d }
      else this.ybusOverride2
    enterDebug :=
      if debugCmd this i .step then this.enterDebug ||| 0b1000
      else if debugCmd this i .continue then this.enterDebug &&& 0b0111
      else this.enterDebug }

def instDoneState : DebugState :=
  if debugCmd this i .insert then .awaitIf
  else if debugCmd this i .step then .awaitBreak
  else if debugCmd this i .continue then .run
  else nextState

/-- An inserted instruction does not move PC. -/
def holdPc : DatapathReg :=
  { this with pcInc := if this.stopPcInc then this.pc else this.pcInc }

/-- The pipeline of the debug request moves on after a slot; its left bit stays. -/
def shiftEnterDebug : DatapathReg :=
  { this with
    enterDebug :=
      if this.slot then this.enterDebug.extractLsb' 3 1 ++ this.enterDebug.extractLsb' 1 3
      else this.enterDebug }

/-- A slot starts once no transaction is outstanding. -/
def slotStarts : Bool := !this.dataO.en && !this.instO.en && this.debugState != .ready

/-- A slot takes the data read by the transactions that were completed. -/
def startSlot : DatapathReg :=
  { this with
    mDr :=
      if slotStarts this && this.mEn then this.mDrNext
      else if slotStarts this && ctrl.coproc.cpuDataMux != .dbus then i.copD
      else this.mDr
    mEn := this.mEn && !slotStarts this
    ifDr := if slotStarts this && this.ifEn then this.ifDrNext else this.ifDr
    illegalDelaySlot :=
      if slotStarts this && this.ifEn then checkIllegalDelaySlot this.ifDrNext
      else this.illegalDelaySlot
    illegalInstr :=
      if slotStarts this && this.ifEn then checkIllegalInstruction this.ifDrNext
      else this.illegalInstr
    ifEn := this.ifEn && !slotStarts this
    slot := slotStarts this }

def maAd : BitVec 32 :=
  match ctrl.mem.addrSel with
  | .selXbus => v.xbus
  | .selYbus => v.ybus
  | .selZbus => v.zbus

def maDw : BitVec 32 :=
  match ctrl.mem.wdataSel with
  | .selYbus => v.ybus
  | .selZbus => v.zbus

/-- The line in the execute stage starts a data request, or passes a datum to
the coprocessor. -/
def dataStarts : Bool :=
  (ctrl.mem.issue && !this.dataO.en) || ctrl.coproc.coprocCmd == .lds

def newDataRequest : DatapathReg :=
  { this with
    dataOSize := if dataStarts this ctrl then ctrl.mem.size else this.dataOSize
    dataO :=
      if dataStarts this ctrl then toDataO ctrl.mem ctrl.coproc (maAd ctrl v) (maDw ctrl v)
      else this.dataO }

def ifAd : BitVec 32 := if dec.instr.addrSel then v.zbus else this.pcInc

/-- The line being decoded starts an instruction request. -/
def instStarts : Bool :=
  dec.instr.issue && (this.debugState == .run || this.debugState == .awaitBreak) && !this.instO.en

/-- In debug mode the request for an instruction pauses the CPU instead. -/
def instPauses : Bool :=
  dec.instr.issue && !(this.debugState == .run || this.debugState == .awaitBreak) &&
    (this.debugState == .awaitIf || nextState == .awaitIf)

def newInstRequest : DatapathReg :=
  { this with
    instO :=
      if instStarts this dec then toInstO dec.instr (ifAd this dec v) dec.instr.addrSel
      else this.instO
    ybusOverride0 := if instPauses this nextState dec then this.ybusOverride1 else this.ybusOverride0
    ybusOverride1 := if instPauses this nextState dec then this.ybusOverride2 else this.ybusOverride1
    ybusOverride2 := if instPauses this nextState dec then busValReset else this.ybusOverride2 }

def newInstRequestState : DebugState := if instPauses this nextState dec then .ready else nextState

def updatePc : DatapathReg :=
  { this with pc := if ctrl.wrZ then v.zbus else if dec.inc then this.pcInc else this.pc }

/-- The next value of SR. -/
def nextSr (sr : Sr) : Sr :=
  match ctrl.sr.sel with
  | .selPrev => sr
  | .selWbus => toSr v.wbus
  | .selZbus => toSr v.zbus
  | .selDiv0u => { sr with m := false, q := false, t := false }
  | .selArith =>
    -- the sign bits come from the buses: `DIV1` has shifted the operand
    arithUpdateSr sr (v.xbus.getLsbD 31) (v.ybus.getLsbD 31) (v.arithOut.extractLsb' 0 32)
      (v.arithOut.getLsbD 32) v.arithFunc ctrl.func.arith.sr
  | .selLogic => logicUpdateSr sr v.logicOut ctrl.func.logicSr 8
  | .selIntMask => { sr with intMask := ctrl.sr.ilevel }
  | .selSetT =>
    match ctrl.sr.t with
    | .selClear => { sr with t := false }
    | .selSet => { sr with t := true }
    | .selShift => { sr with t := v.sfto }
    | .selCarry => { sr with t := v.arithOut.getLsbD 32 }

def updateSr : DatapathReg := { this with sr := nextSr ctrl v this.sr }

/-- The saturation bit for the multiplier and the lock of the data bus. -/
def latchModes : DatapathReg :=
  { this with
    macS := if dec.sLatch then this.sr.s else this.macS
    dataOLock := ctrl.mem.lock }

/-- What a slot does at its start. -/
def runSlot : DatapathReg :=
  latchModes
    (updateSr
      (updatePc (newInstRequest (newDataRequest this ctrl v) nextState dec v) ctrl dec v) ctrl v)
    ctrl dec

/-- Acknowledging a debug command once the CPU runs or is ready. -/
def debugAck : DatapathReg :=
  let settled := nextState == .run || nextState == .ready
  { this with
    debugO :=
      { ack := if settled then i.debugI.en else this.debugO.ack
        d :=
          if settled && !this.debugO.ack && i.debugI.en then
            if i.debugI.cmd == .insert then v.wrDataO else this.pc
          else this.debugO.d
        rdy := nextState == .ready }
    stopPcInc := if settled then false else this.stopPcInc
    debugState := nextState }

def nextPcInc : DatapathReg := { this with pcInc := this.pc + 2 }

/-- The record with the answers and debug commands of the clock. -/
def answered : DatapathReg :=
  shiftEnterDebug (holdPc (instDone (dataDone (debugEntry this dec i) i) dec i))

/-- The record when it is decided whether a slot starts. -/
def settle : DatapathReg := startSlot (answered this dec i) ctrl i

/-- The debug state that the commands lead to. -/
def settleState : DebugState :=
  instDoneState (dataDone (debugEntry this dec i) i) (debugEntryState this dec i) i

/-- The process, in the order of the source. -/
def process : DatapathReg :=
  let settled := settle this ctrl dec i
  let state := settleState this dec i
  if settled.slot then
    debugAck (nextPcInc (runSlot settled state ctrl dec v)) (newInstRequestState settled state dec)
      v i
  else debugAck (nextPcInc settled) state v i

end Process

/-! ### The entity -/

/-- The data path: the process and the register file. -/
@[ext] structure State where
  this : DatapathReg
  regs : RegisterFile 5 21 32

variable (s : State) (ctrl : StageCtrl) (dec : DecodeCtrl) (i : DatapathI)

/-- The combinational logic in front of the process. -/
def processI : ProcessI where
  xbus := xbus s.this s.regs ctrl
  ybus := ybus s.this s.regs ctrl i
  zbus := zbus s.this s.regs ctrl i
  wbus := wbus s.this
  arithOut := arithOut s.this s.regs ctrl i
  logicOut := logicOut s.this s.regs ctrl i
  arithFunc := arithFunc s.this ctrl
  sfto := sfto s.this s.regs ctrl i
  wrDataO := s.regs.wrDataO

/-- The registers of the process after this clock, whose T and slot bits the
data path puts out before the clock. -/
def combinatorial : DatapathReg := process s.this ctrl dec (processI s ctrl i) i

/-- One clock. -/
def step : State :=
  { this := combinatorial s ctrl dec i
    regs :=
      s.regs.step (wbPipe s.this ctrl) (exPipe0 s.this s.regs ctrl i)
        (combinatorial s ctrl dec i).slot }

/-- The inputs of the data path in one clock. -/
structure ClockI where
  ctrl : StageCtrl
  dec : DecodeCtrl
  i : DatapathI
  deriving DecidableEq, Repr

/-- The states from a start on. -/
def run (clk : ℕ → ClockI) : ℕ → State := trace (fun s c => step s c.ctrl c.dec c.i) s clk

/-- The state after `rst`, with what the register file happens to hold. -/
def reset (regs : RegisterFile 5 21 32) : State := { this := datapathReset, regs := regs }

/-! ### Outputs -/

/-- Interrupts are masked in debug mode and while it is being entered. -/
def maskInt (this : DatapathReg) : Bool := !(this.debugState == .run && this.enterDebug == 0)

def enterDebug (this : DatapathReg) : Bool := this.enterDebug.getLsbD 0

end Datapath

end JCore
