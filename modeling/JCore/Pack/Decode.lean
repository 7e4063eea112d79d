import JCore.Mult.Unit
import JCore.Pack.Components
import JCore.Pack.Cpu

/-!
# Control signals

The types of `decode_pack`: the selectors of the data path, the records in
which the decoder table delivers them, the pipeline they pass through, and the
bundles in which they reach the data path.

A field of a `_stall` record is reset while the line that sets it is stalled;
the other fields travel on unconditionally.
-/

namespace JCore

/-! ### Selectors -/

inductive AluinxSel where
  | selXbus | selFc | selRotcl | selZero
  deriving DecidableEq, Repr

inductive AluinySel where
  | selYbus | selImm | selR0
  deriving DecidableEq, Repr

inductive CoprocCmd where
  | nop | lds | sts | clds | csts
  deriving DecidableEq, Repr

inductive CpuDataMux where
  | dbus | coproc
  deriving DecidableEq, Repr

inductive InstructionPlane where
  | normalInstr | systemInstr
  deriving DecidableEq, Repr

inductive MacBusy where
  | notBusy | exNotStall | wbNotStall | exBusy | wbBusy
  deriving DecidableEq, Repr

inductive Macin1Sel where
  | selXbus | selZbus | selWbus
  deriving DecidableEq, Repr

inductive Macin2Sel where
  | selYbus | selZbus | selWbus
  deriving DecidableEq, Repr

inductive MemAddrSel where
  | selXbus | selYbus | selZbus
  deriving DecidableEq, Repr

inductive MemWdataSel where
  | selZbus | selYbus
  deriving DecidableEq, Repr

inductive SrSel where
  | selPrev | selWbus | selZbus | selDiv0u | selArith | selLogic | selIntMask | selSetT
  deriving DecidableEq, Repr

inductive TSel where
  | selClear | selSet | selShift | selCarry
  deriving DecidableEq, Repr

inductive XbusSel where
  | selImm | selReg | selPc
  deriving DecidableEq, Repr

inductive YbusSel where
  | selImm | selReg | selMach | selMacl | selPc | selSr
  deriving DecidableEq, Repr

inductive ZbusSel where
  | selArith | selLogic | selShift | selManip | selYbus | selWbus
  deriving DecidableEq, Repr

/-- The number of a register. -/
abbrev Regnum := BitVec 5

/-! ### Operations -/

/-- What the decoder works on: the instruction word, or the code of a system
operation, and the address of the current microcode line. -/
@[ext] structure Operation where
  plane : InstructionPlane
  code : BitVec 16
  addr : BitVec 8
  deriving DecidableEq, Repr

inductive SystemInstr where
  | break | error | generalIllegal | interrupt | resetCpu | slotIllegal
  deriving DecidableEq, Repr

def systemInstrRomAddrs : SystemInstr → BitVec 8
  | .break => 0xfa
  | .error => 0xf1
  | .generalIllegal => 0xd1
  | .interrupt => 0xe8
  | .resetCpu => 0xe1
  | .slotIllegal => 0xd9

def systemInstrCodes : SystemInstr → BitVec 4
  | .break => 0x2
  | .error => 0x1
  | .generalIllegal => 0x7
  | .interrupt => 0x0
  | .resetCpu => 0x3
  | .slotIllegal => 0x6

def systemEventCodes : CpuEventCmd → BitVec 4
  | .interrupt => 0x0
  | .error => 0x1
  | .break => 0x2
  | .resetCpu => 0x3

def systemEventInstrs : CpuEventCmd → SystemInstr
  | .interrupt => .interrupt
  | .error => .error
  | .break => .break
  | .resetCpu => .resetCpu

/-! ### The pipeline -/

/-- Signals of the execute stage that a stall leaves alone. -/
@[ext] structure PipelineEx where
  immVal : BitVec 32
  xbusSel : XbusSel
  ybusSel : YbusSel
  regnumZ : Regnum
  regnumX : Regnum
  regnumY : Regnum
  alumanip : Alumanip
  aluinxSel : AluinxSel
  aluinySel : AluinySel
  arithFunc : ArithFunc
  arithCiEn : Bool
  arithSrFunc : ArithSrFunc
  logicFunc : LogicFunc
  logicSrFunc : LogicSrFunc
  macBusy : Bool
  maWr : Bool
  memLock : Bool
  memSize : MemSize
  coprocCmd : CoprocCmd
  deriving DecidableEq, Repr

/-- Signals of the execute stage that a stall resets. -/
@[ext] structure PipelineExStall where
  wrpcZ : Bool
  wrsrZ : Bool
  maIssue : Bool
  wrprPc : Bool
  zbusSel : ZbusSel
  srSel : SrSel
  tSel : TSel
  memAddrSel : MemAddrSel
  memWdataSel : MemWdataSel
  wrregZ : Bool
  wrmach : Bool
  wrmacl : Bool
  shiftfunc : Shiftfunc
  mulcom1 : Bool
  mulcom2 : MultState
  macsel1 : Macin1Sel
  macsel2 : Macin2Sel
  deriving DecidableEq, Repr

/-- Signals that the decode stage uses itself. -/
structure PipelineId where
  incpc : Bool
  ifIssue : Bool
  ifadsel : Bool
  deriving DecidableEq, Repr

/-- Signals of the write-back stages that a stall resets. -/
@[ext] structure PipelineWbStall where
  mulcom1 : Bool
  wrmach : Bool
  wrmacl : Bool
  wrregW : Bool
  wrsrW : Bool
  macsel1 : Macin1Sel
  macsel2 : Macin2Sel
  mulcom2 : MultState
  cpuDataMux : CpuDataMux
  deriving DecidableEq, Repr

/-- Signals of the write-back stages that a stall leaves alone. -/
@[ext] structure PipelineWb where
  regnumW : Regnum
  macBusy : Bool
  deriving DecidableEq, Repr

/-- The pipeline of control signals. -/
@[ext] structure Pipeline where
  ex1 : PipelineEx
  ex1Stall : PipelineExStall
  wb1 : PipelineWb
  wb2 : PipelineWb
  wb3 : PipelineWb
  wb1Stall : PipelineWbStall
  wb2Stall : PipelineWbStall
  wb3Stall : PipelineWbStall
  deriving DecidableEq, Repr

def stageExReset : PipelineEx :=
  { immVal := 0, xbusSel := .selImm, ybusSel := .selImm, regnumZ := 0, regnumX := 0, regnumY := 0,
    alumanip := .swapByte, aluinxSel := .selXbus, aluinySel := .selYbus, arithFunc := .add,
    arithCiEn := false, arithSrFunc := .zero, logicFunc := .logicNot, logicSrFunc := .zero,
    macBusy := false, maWr := false, memLock := false, memSize := .byte, coprocCmd := .nop }

def stageWbReset : PipelineWb := { regnumW := 0, macBusy := false }

def stageExStallReset : PipelineExStall :=
  { wrpcZ := false, wrsrZ := false, maIssue := false, wrprPc := false, zbusSel := .selArith,
    srSel := .selPrev, tSel := .selClear, memAddrSel := .selXbus, memWdataSel := .selZbus,
    wrregZ := false, wrmach := false, wrmacl := false, shiftfunc := .logic, mulcom1 := false,
    mulcom2 := .nop, macsel1 := .selXbus, macsel2 := .selYbus }

def stageWbStallReset : PipelineWbStall :=
  { mulcom1 := false, wrmach := false, wrmacl := false, wrregW := false, wrsrW := false,
    macsel1 := .selXbus, macsel2 := .selYbus, mulcom2 := .nop, cpuDataMux := .dbus }

def pipelineReset : Pipeline :=
  { ex1 := stageExReset, ex1Stall := stageExStallReset, wb1 := stageWbReset, wb2 := stageWbReset,
    wb3 := stageWbReset, wb1Stall := stageWbStallReset, wb2Stall := stageWbStallReset,
    wb3Stall := stageWbStallReset }

/-- A line of the decoder table: everything the table derives from the operation. -/
structure TableLine where
  debug : Bool
  delayJump : Bool
  dispatch : Bool
  eventAck0 : Bool
  ex : PipelineEx
  exStall : PipelineExStall
  id : PipelineId
  ilevelCap : Bool
  macSLatch : Bool
  macStallSense : Bool
  maskintNext : Bool
  slp : Bool
  wb : PipelineWb
  wbStall : PipelineWbStall
  deriving DecidableEq, Repr

/-! ### Bundles for the data path -/

structure AluCtrl where
  manip : Alumanip
  inxSel : AluinxSel
  inySel : AluinySel
  deriving DecidableEq, Repr

structure ArithCtrl where
  func : ArithFunc
  ciEn : Bool
  sr : ArithSrFunc
  deriving DecidableEq, Repr

structure BusesCtrl where
  xSel : XbusSel
  ySel : YbusSel
  zSel : ZbusSel
  immVal : BitVec 32
  deriving DecidableEq, Repr

structure CoprocCtrl where
  cpuDataMux : CpuDataMux
  coprocCmd : CoprocCmd
  deriving DecidableEq, Repr

structure FuncCtrl where
  alu : AluCtrl
  shift : Shiftfunc
  arith : ArithCtrl
  logicFunc : LogicFunc
  logicSr : LogicSrFunc
  deriving DecidableEq, Repr

structure InstrCtrl where
  issue : Bool
  addrSel : Bool
  deriving DecidableEq, Repr

structure MacCtrl where
  com1 : Bool
  wrmach : Bool
  wrmacl : Bool
  sLatch : Bool
  sel1 : Macin1Sel
  sel2 : Macin2Sel
  com2 : MultState
  deriving DecidableEq, Repr

structure MemCtrl where
  issue : Bool
  wr : Bool
  lock : Bool
  size : MemSize
  addrSel : MemAddrSel
  wdataSel : MemWdataSel
  deriving DecidableEq, Repr

structure PcCtrl where
  wrZ : Bool
  wrpr : Bool
  inc : Bool
  deriving DecidableEq, Repr

structure RegCtrl where
  numX : Regnum
  numY : Regnum
  numZ : Regnum
  numW : Regnum
  wrZ : Bool
  wrW : Bool
  deriving DecidableEq, Repr

structure SrCtrl where
  sel : SrSel
  t : TSel
  ilevel : BitVec 4
  deriving DecidableEq, Repr

end JCore
