import JCore.Pack.Decode

/-!
# The pipeline of control signals

The pipeline process of `decode.vhd` and the bundles it drives. A line enters at
`ex1` and `wb1`; a stalled line enters too, but with the fields of its `_stall`
records reset, which makes it a bubble.
-/

namespace JCore

/-- A line without effect. -/
def idleLine : TableLine :=
  { debug := false, delayJump := false, dispatch := false, eventAck0 := false, ex := stageExReset,
    exStall := stageExStallReset, id := ⟨false, false, false⟩, ilevelCap := false,
    macSLatch := false, macStallSense := false, maskintNext := false, slp := false,
    wb := stageWbReset, wbStall := stageWbStallReset }

namespace Pipeline

variable (this : Pipeline)

/-- One clock of the pipeline. -/
def step (slot nextIdStall : Bool) (line : TableLine) : Pipeline :=
  if slot then
    { ex1 := line.ex
      ex1Stall := if nextIdStall then stageExStallReset else line.exStall
      wb1 := line.wb
      wb2 := this.wb1
      wb3 := this.wb2
      wb1Stall := if nextIdStall then stageWbStallReset else line.wbStall
      wb2Stall := this.wb1Stall
      wb3Stall := this.wb2Stall }
  else this

/-! ### Outputs -/

def func : FuncCtrl :=
  { alu :=
      { manip := this.ex1.alumanip, inxSel := this.ex1.aluinxSel, inySel := this.ex1.aluinySel }
    shift := this.ex1Stall.shiftfunc
    arith :=
      { func := this.ex1.arithFunc, ciEn := this.ex1.arithCiEn, sr := this.ex1.arithSrFunc }
    logicFunc := this.ex1.logicFunc
    logicSr := this.ex1.logicSrFunc }

def buses : BusesCtrl :=
  { xSel := this.ex1.xbusSel, ySel := this.ex1.ybusSel, zSel := this.ex1Stall.zbusSel,
    immVal := this.ex1.immVal }

def mem : MemCtrl :=
  { issue := this.ex1Stall.maIssue, wr := this.ex1.maWr, lock := this.ex1.memLock,
    size := this.ex1.memSize, addrSel := this.ex1Stall.memAddrSel,
    wdataSel := this.ex1Stall.memWdataSel }

def reg : RegCtrl :=
  { numX := this.ex1.regnumX, numY := this.ex1.regnumY, numZ := this.ex1.regnumZ,
    numW := this.wb3.regnumW, wrZ := this.ex1Stall.wrregZ, wrW := this.wb3Stall.wrregW }

/-- The program counter's bundle; the increment comes from the decode stage. -/
def pc (incpc : Bool) : PcCtrl :=
  { wrZ := this.ex1Stall.wrpcZ, wrpr := this.ex1Stall.wrprPc, inc := incpc }

/-- The multiplier's bundle. The execute stage comes before the last write-back
stage, from which the results of loads are taken. -/
def mac (sLatch : Bool) : MacCtrl :=
  { com1 := this.ex1Stall.mulcom1 || this.wb3Stall.mulcom1
    wrmach := this.ex1Stall.wrmach || this.wb3Stall.wrmach
    wrmacl := this.ex1Stall.wrmacl || this.wb3Stall.wrmacl
    sLatch := sLatch
    sel1 :=
      if this.ex1Stall.mulcom1 || this.ex1Stall.wrmach then this.ex1Stall.macsel1
      else this.wb3Stall.macsel1
    sel2 :=
      if this.ex1Stall.mulcom2 ≠ .nop ∨ this.ex1Stall.wrmacl then this.ex1Stall.macsel2
      else this.wb3Stall.macsel2
    com2 :=
      if this.ex1Stall.mulcom2 ≠ .nop then this.ex1Stall.mulcom2 else this.wb3Stall.mulcom2 }

/-- The status register's bundle: a load from the W bus comes first. -/
def sr (ilevel : BitVec 4) : SrCtrl :=
  { sel := if this.wb3Stall.wrsrW then .selWbus else this.ex1Stall.srSel
    t := this.ex1Stall.tSel
    ilevel := ilevel }

def coproc : CoprocCtrl :=
  { cpuDataMux := this.wb2Stall.cpuDataMux
    coprocCmd :=
      if this.ex1.coprocCmd = .sts ∧ this.wb1Stall.cpuDataMux = .dbus then .csts
      else this.ex1.coprocCmd }

end Pipeline

end JCore
