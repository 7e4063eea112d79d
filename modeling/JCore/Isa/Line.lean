import JCore.Core.Datapath
import JCore.Decode.Branches
import JCore.Lib.WriteLog

/-!
# What a line computes

The value of a microcode line in the execute stage: the operands that its fields
select among PC, the registers and SR, the result of the functional units, what it
writes on the Z bus, the flags, and its request of the data bus. Nothing here knows
of the other stages.

## Main definitions

* `Line`: the fields of a microcode line that the execute stage goes by
* `Operands`: what a line reads
* `Line.z`, `Line.sr`, `Line.write`, `Line.request`: what it computes
-/

namespace JCore

open DecodeTable

/-- The registers as the read ports hold them. -/
abbrev Regs := ReadPort → Regnum → BitVec 32

/-- A write reaches the copies behind all ports. -/
def Regs.write (regs : Regs) (w : Option (Regnum × BitVec 32)) : Regs :=
  fun port => applyWrite (regs port) w

/-- The fields of a line for the execute stage, with those of the operation's word
still selectors. -/
structure Line where
  xSel : XbusSel := .selImm
  ySel : YbusSel := .selImm
  zSel : ZbusSel := .selLogic
  inx : AluinxSel := .selXbus
  iny : AluinySel := .selYbus
  imm : BitVec 5 := 0
  numX : BitVec 3 := 0
  numY : BitVec 5 := 0
  numZ : BitVec 3 := 0
  numW : BitVec 3 := 0
  wrregZ : Bool := false
  wrregW : Bool := false
  wrprPc : Bool := false
  wrsrW : Bool := false
  srSel : SrSel := .selPrev
  tSel : TSel := .selClear
  arithFunc : ArithFunc := .add
  arithSr : ArithSrFunc := .zero
  arithCi : Bool := false
  logicFunc : LogicFunc := .logicNot
  logicSr : LogicSrFunc := .zero
  shift : Shiftfunc := .logic
  manip : Alumanip := .swapByte
  maIssue : Bool := false
  maWr : Bool := false
  size : MemSize := .byte
  addrSel : MemAddrSel := .selXbus
  wdataSel : MemWdataSel := .selZbus
  deriving DecidableEq, Repr

/-- What a line reads besides its own word. -/
structure Values where
  pc : BitVec 32
  regs : Regs
  sr : Sr
  mach : BitVec 32
  macl : BitVec 32

/-- A request of a line: a load into a register, or a store. -/
inductive MemOp where
  | load (size : MemSize) (addr : BitVec 32)
  | store (size : MemSize) (addr data : BitVec 32)
  deriving DecidableEq, Repr

namespace Line

/-- The fields of a line of the ROM, for a value of T. -/
def ofRom (line : BitVec 75) (t : Bool) : Line where
  xSel := xbusSel line
  ySel := ybusSel line
  zSel := zbusSel line
  inx := aluinxSel line
  iny := aluinySel line
  imm := line.extractLsb 59 55
  numX := line.extractLsb 41 39
  numY := line.extractLsb 17 13
  numZ := line.extractLsb 38 36
  numW := line.extractLsb 44 42
  wrregZ := DecodeTable.wrregZ line
  wrregW := DecodeTable.wrregW line
  wrprPc := DecodeTable.wrprPc line
  wrsrW := DecodeTable.wrsrW line
  srSel := DecodeTable.srSel line
  tSel := DecodeTable.tSel line
  arithFunc := DecodeTable.arithFunc line
  arithSr := arithSrFunc line
  arithCi := arithCiEn line
  logicFunc := DecodeTable.logicFunc line
  logicSr := logicSrFunc line
  shift := shiftfunc line
  manip := alumanip line
  maIssue := DecodeTable.maIssue line t
  maWr := DecodeTable.maWr line
  size := memSize line
  addrSel := memAddrSel line
  wdataSel := memWdataSel line

/-! ### Fields of the word -/

section Word

variable (line : Line) (code : BitVec 16)

def regX : Regnum :=
  match line.numX with
  | 0b000 => 0b10100#5
  | 0b001 => 0b01111#5
  | 0b010 => 0#1 ++ code.extractLsb 11 8
  | 0b100 => 0#1 ++ code.extractLsb 7 4
  | 0b101 => 0b10000#5
  | 0b110 => 0b10011#5
  | 0b111 => 0b10001#5
  | _ => 0b00000#5

def regY : Regnum :=
  match line.numY with
  | 0b11000 | 0b01010 => 0b10011#5
  | 0b10000 | 0b00011 => 0b10010#5
  | 0b01101 | 0b00111 => 0b10001#5
  | 0b01100 | 0b00110 => 0b10000#5
  | 0b00001 => 0b10100#5
  | 0b10011 | 0b10100 | 0b10010 => 0#1 ++ code.extractLsb 7 4
  | 0b10001 => 0#1 ++ code.extractLsb 11 8
  | _ => 0b00000#5

def regZ : Regnum :=
  match line.numZ with
  | 0b000 => 0b01111#5
  | 0b001 => 0#1 ++ code.extractLsb 11 8
  | 0b010 => 0b10000#5
  | 0b011 => 0b10001#5
  | 0b100 => 0b10010#5
  | 0b101 => 0b10011#5
  | 0b110 => 0#1 ++ code.extractLsb 7 4
  | _ => 0b00000#5

def regW : Regnum :=
  match line.numW with
  | 0b000 => 0b10011#5
  | 0b001 => 0#1 ++ code.extractLsb 11 8
  | 0b010 => 0b10000#5
  | 0b011 => 0b10001#5
  | 0b100 => 0b10010#5
  | 0b110 => 0b10100#5
  | 0b111 => 0b01111#5
  | _ => 0b00000#5

def immVal : BitVec 32 :=
  match line.imm with
  | 0b00011 => 0xffffffff#32
  | 0b00010 => 0x00000001#32
  | 0b00101 => 0xfffffffe#32
  | 0b00100 => 0x00000002#32
  | 0b00000 => 0x00000004#32
  | 0b00111 => 0xfffffff8#32
  | 0b00110 => 0x00000008#32
  | 0b01001 => 0xfffffff0#32
  | 0b01000 => 0x00000010#32
  | 0b10001 => immS12_1 code
  | 0b01101 => 0#24 ++ code.extractLsb 7 0
  | 0b01110 => 0#23 ++ code.extractLsb 7 0 ++ 0#1
  | 0b01111 => 0#22 ++ code.extractLsb 7 0 ++ 0#2
  | 0b10010 => immS8_0 code
  | 0b10000 => immS8_1 code
  | 0b01010 => 0#28 ++ code.extractLsb 3 0
  | 0b01011 => 0#27 ++ code.extractLsb 3 0 ++ 0#1
  | 0b01100 => 0#26 ++ code.extractLsb 3 0 ++ 0#2
  | _ => 0x00000000#32

end Word

/-! ### Values -/

section Values

variable (line : Line) (code : BitVec 16) (v : Values)

def x : BitVec 32 :=
  match line.xSel with
  | .selReg => v.regs .a (line.regX code)
  | .selPc => v.pc
  | .selImm => line.immVal code

def y : BitVec 32 :=
  match line.ySel with
  | .selReg => v.regs .b (line.regY code)
  | .selPc => v.pc
  | .selMach => v.mach
  | .selMacl => v.macl
  | .selSr => Datapath.srToSlv v.sr
  | .selImm => line.immVal code

def aluinx : BitVec 32 :=
  match line.inx with
  | .selFc => (line.x code v).extractLsb' 2 30 ++ 0#2
  | .selRotcl => (line.x code v).extractLsb' 0 31 ++ BitVec.ofBool v.sr.t
  | .selZero => 0
  | .selXbus => line.x code v

def aluiny : BitVec 32 :=
  match line.iny with
  | .selImm => line.immVal code
  | .selR0 => v.regs .zero 0
  | .selYbus => line.y code v

def func : ArithFunc :=
  if line.arithSr = .div1 then if v.sr.m = v.sr.q then .sub else .add else line.arithFunc

def arithOut : BitVec 33 :=
  arithUnit (line.aluinx code v) (line.aluiny code v) (line.func v) (line.arithCi && v.sr.t)

def logicOut : BitVec 32 := logicUnit (line.aluinx code v) (line.aluiny code v) line.logicFunc

/-- The value on the Z bus, but for a line that takes it from the W bus. -/
def z : BitVec 32 :=
  match line.zSel with
  | .selArith => (line.arithOut code v).extractLsb' 0 32
  | .selLogic => line.logicOut code v
  | .selShift =>
    bshifter (n := 5) (line.x code v)
      (BitVec.ofBool ((line.y code v).getLsbD 31) ++ (line.y code v).extractLsb' 0 5) v.sr.t line.shift
  | .selManip => JCore.manip (line.x code v) (line.y code v) line.manip
  | .selYbus => line.y code v
  | .selWbus => 0

def shifted : Bool :=
  if (line.y code v).getLsbD 31 then (line.x code v).getLsbD 0 else (line.x code v).getLsbD 31

/-- SR as the line leaves it in the execute stage. -/
def sr : Sr :=
  match line.srSel with
  | .selPrev | .selWbus | .selIntMask => v.sr
  | .selZbus => Datapath.toSr (line.z code v)
  | .selDiv0u => { v.sr with m := false, q := false, t := false }
  | .selArith =>
    arithUpdateSr v.sr ((line.x code v).getLsbD 31) ((line.y code v).getLsbD 31)
      ((line.arithOut code v).extractLsb' 0 32) ((line.arithOut code v).getLsbD 32) (line.func v)
      line.arithSr
  | .selLogic => logicUpdateSr v.sr (line.logicOut code v) line.logicSr 8
  | .selSetT =>
    match line.tSel with
    | .selClear => { v.sr with t := false }
    | .selSet => { v.sr with t := true }
    | .selShift => { v.sr with t := line.shifted code v }
    | .selCarry => { v.sr with t := (line.arithOut code v).getLsbD 32 }

/-- What the line writes on the Z bus. -/
def write : Option (Regnum × BitVec 32) :=
  if line.wrregZ then some (line.regZ code, if line.wrprPc then v.pc else line.z code v) else none

def addr : BitVec 32 :=
  match line.addrSel with
  | .selXbus => line.x code v
  | .selYbus => line.y code v
  | .selZbus => line.z code v

def wdata : BitVec 32 :=
  match line.wdataSel with
  | .selYbus => line.y code v
  | .selZbus => line.z code v

/-- What it asks of the data bus. -/
def request : Option MemOp :=
  if line.maIssue then
    if line.maWr then some (.store line.size (line.addr code v) (line.wdata code v))
    else some (.load line.size (line.addr code v))
  else none

/-- The register that a load goes to. -/
def target : Option Regnum := if line.wrregW then some (line.regW code) else none

end Values

end Line

end JCore
