import JCore.Decode.Rom
import JCore.Pack.Decode

/-!
# The decoder table

The architecture `rom` of `decode_table`. Each signal is a function of one field
of the microcode line; where the line says so, also of the operation code, of T
as the data path is about to set it, or of the stall. The memory is read in the
middle of the clock, so the line belongs to the operation presented in it.
-/

namespace JCore

namespace DecodeTable

/-! ### Immediate operands -/

/-- Sign extension of the lower 8 bits of the code. -/
def immS8_0 (code : BitVec 16) : BitVec 32 := (code.extractLsb 7 0).signExtend 32

/-- Sign extension of the lower 8 bits, shifted by one. -/
def immS8_1 (code : BitVec 16) : BitVec 32 := (code.extractLsb 7 0 ++ 0#1).signExtend 32

/-- Sign extension of the lower 12 bits, shifted by one. -/
def immS12_1 (code : BitVec 16) : BitVec 32 := (code.extractLsb 11 0 ++ 0#1).signExtend 32

/-! ### Signals -/

section Signals

variable (line : BitVec 75)

def macBusy : MacBusy :=
  match line.extractLsb 53 52 with
  | 0b01 => .wbNotStall
  | 0b10 => .exNotStall
  | 0b11 => .wbBusy
  | _ => .notBusy

def exMacBusy (nextIdStall : Bool) : Bool :=
  match macBusy line with
  | .exBusy => true
  | .exNotStall => !nextIdStall
  | _ => false

def wbMacBusy (nextIdStall : Bool) : Bool :=
  match macBusy line with
  | .wbBusy => true
  | .wbNotStall => !nextIdStall
  | _ => false

def wrpcZ (tBcc : Bool) : Bool :=
  match line.extractLsb 2 0 with
  | 0b010 | 0b100 => true
  | 0b101 => !tBcc
  | 0b110 => tBcc
  | _ => false

def wrsrZ : Bool :=
  match line.extractLsb 2 0 with
  | 0b011 => true
  | _ => false

def wrsrW : Bool :=
  match line.extractLsb 2 0 with
  | 0b001 => true
  | _ => false

def wrprPc : Bool :=
  match line.extractLsb 2 0 with
  | 0b100 => true
  | _ => false

def wbWrmach : Bool :=
  match line.extractLsb 6 3 with
  | 0b0100 => true
  | _ => false

def exWrmach : Bool :=
  match line.extractLsb 6 3 with
  | 0b0010 | 0b0001 => true
  | _ => false

def exMulcom2 : MultState :=
  match line.extractLsb 6 3 with
  | 0b1010 => .muluw
  | 0b1001 => .mulsw
  | 0b1000 => .mull
  | 0b0111 => .dmulul
  | 0b0110 => .dmulsl
  | _ => .nop

def wbMulcom2 : MultState :=
  match line.extractLsb 6 3 with
  | 0b1100 => .macw
  | 0b1011 => .macl
  | _ => .nop

def wbMacsel2 : Macin2Sel :=
  match line.extractLsb 6 3 with
  | 0b1100 | 0b1011 | 0b0101 => .selWbus
  | _ => .selYbus

def exMacsel2 : Macin2Sel :=
  match line.extractLsb 6 3 with
  | 0b0011 | 0b0001 => .selZbus
  | _ => .selYbus

def exMulcom1 : Bool :=
  match line.extractLsb 9 7 with
  | 0b110 => true
  | _ => false

def wbMulcom1 : Bool :=
  match line.extractLsb 9 7 with
  | 0b111 => true
  | _ => false

def wbMacsel1 : Macin1Sel :=
  match line.extractLsb 9 7 with
  | 0b100 | 0b111 => .selWbus
  | _ => .selXbus

def exWrmacl : Bool :=
  match line.extractLsb 9 7 with
  | 0b001 | 0b011 => true
  | _ => false

def exMacsel1 : Macin1Sel :=
  match line.extractLsb 9 7 with
  | 0b001 | 0b010 => .selZbus
  | _ => .selXbus

def wbWrmacl : Bool :=
  match line.extractLsb 9 7 with
  | 0b101 => true
  | _ => false

def memSize : MemSize :=
  match line.extractLsb 12 10 with
  | 0b001 | 0b100 | 0b101 => .long
  | 0b110 | 0b111 => .word
  | _ => .byte

def maIssue (tBcc : Bool) : Bool :=
  match line.extractLsb 12 10 with
  | 0b001 | 0b010 | 0b011 | 0b100 | 0b110 | 0b111 => true
  | 0b101 => tBcc
  | _ => false

def maWr : Bool :=
  match line.extractLsb 12 10 with
  | 0b011 | 0b100 | 0b101 | 0b110 => true
  | _ => false

def aluinySel : AluinySel :=
  match line.extractLsb 17 13 with
  | 0b01110 | 0b01011 | 0b11000 | 0b10000 | 0b01101 | 0b01100 | 0b10011 | 0b01111 | 0b11001
    | 0b00010 | 0b10110 =>
    .selImm
  | 0b10100 | 0b10101 => .selR0
  | _ => .selYbus

def regnumY (code : BitVec 16) : Regnum :=
  match line.extractLsb 17 13 with
  | 0b11000 | 0b01010 => 0b10011#5
  | 0b10000 | 0b00011 => 0b10010#5
  | 0b01101 | 0b00111 => 0b10001#5
  | 0b01100 | 0b00110 => 0b10000#5
  | 0b00001 => 0b10100#5
  | 0b10011 | 0b10100 | 0b10010 => 0#1 ++ code.extractLsb 7 4
  | 0b10001 => 0#1 ++ code.extractLsb 11 8
  | _ => 0b00000#5

def ybusSel : YbusSel :=
  match line.extractLsb 17 13 with
  | 0b01110 | 0b01000 => .selMach
  | 0b10111 | 0b11000 | 0b10000 | 0b01101 | 0b01100 | 0b00001 | 0b10011 | 0b01010 | 0b00011
    | 0b00111 | 0b00110 | 0b10100 | 0b10010 | 0b10110 | 0b10001 =>
    .selReg
  | 0b01011 | 0b00101 => .selSr
  | 0b01111 | 0b01001 => .selMacl
  | 0b11001 => .selPc
  | _ => .selImm

def tSel : TSel :=
  match line.extractLsb 22 18 with
  | 0b00111 => .selShift
  | 0b00011 => .selSet
  | 0b01001 => .selCarry
  | _ => .selClear

def srSel : SrSel :=
  match line.extractLsb 22 18 with
  | 0b00010 => .selDiv0u
  | 0b00001 | 0b00111 | 0b00011 | 0b01001 => .selSetT
  | 0b01011 | 0b01110 => .selLogic
  | 0b01000 => .selZbus
  | 0b01010 | 0b01101 | 0b01100 | 0b00101 | 0b00100 | 0b01111 | 0b10000 | 0b00110 => .selArith
  | 0b10001 => .selIntMask
  | _ => .selPrev

def logicSrFunc : LogicSrFunc :=
  match line.extractLsb 22 18 with
  | 0b01110 => .byteEq
  | _ => .zero

def arithSrFunc : ArithSrFunc :=
  match line.extractLsb 22 18 with
  | 0b01010 => .overunderflow
  | 0b01101 => .ugrter
  | 0b01100 => .ugrterEq
  | 0b00101 => .sgrterEq
  | 0b00100 => .sgrter
  | 0b01111 => .div1
  | 0b10000 => .div0s
  | _ => .zero

def arithFunc : ArithFunc :=
  match line.extractLsb 27 23 with
  | 0b00011 => .sub
  | _ => .add

def alumanip : Alumanip :=
  match line.extractLsb 27 23 with
  | 0b01001 => .setBit7
  | 0b01010 => .extendSbyte
  | 0b01101 => .extendUword
  | 0b10010 => .extract
  | 0b01100 => .extendUbyte
  | 0b10001 => .swapWord
  | 0b01011 => .extendSword
  | _ => .swapByte

def shiftfunc : Shiftfunc :=
  match line.extractLsb 27 23 with
  | 0b01000 => .arith
  | 0b00110 => .rotc
  | 0b00101 => .rotate
  | _ => .logic

def logicFunc : LogicFunc :=
  match line.extractLsb 27 23 with
  | 0b01111 => .logicOr
  | 0b00001 => .logicXor
  | 0b00100 => .logicAnd
  | _ => .logicNot

def zbusSel : ZbusSel :=
  match line.extractLsb 30 28 with
  | 0b000 => .selLogic
  | 0b010 => .selWbus
  | 0b011 => .selYbus
  | 0b100 => .selShift
  | 0b101 => .selManip
  | _ => .selArith

def xbusSel : XbusSel :=
  match line.extractLsb 32 31 with
  | 0b01 => .selReg
  | 0b11 => .selPc
  | _ => .selImm

def wrregZ : Bool := line.getLsbD 33

def wrregW : Bool := line.getLsbD 34

def slp : Bool := line.getLsbD 35

def regnumZ (code : BitVec 16) : Regnum :=
  match line.extractLsb 38 36 with
  | 0b000 => 0b01111#5
  | 0b001 => 0#1 ++ code.extractLsb 11 8
  | 0b010 => 0b10000#5
  | 0b011 => 0b10001#5
  | 0b100 => 0b10010#5
  | 0b101 => 0b10011#5
  | 0b110 => 0#1 ++ code.extractLsb 7 4
  | _ => 0b00000#5

def regnumX (code : BitVec 16) : Regnum :=
  match line.extractLsb 41 39 with
  | 0b000 => 0b10100#5
  | 0b001 => 0b01111#5
  | 0b010 => 0#1 ++ code.extractLsb 11 8
  | 0b100 => 0#1 ++ code.extractLsb 7 4
  | 0b101 => 0b10000#5
  | 0b110 => 0b10011#5
  | 0b111 => 0b10001#5
  | _ => 0b00000#5

def regnumW (code : BitVec 16) : Regnum :=
  match line.extractLsb 44 42 with
  | 0b000 => 0b10011#5
  | 0b001 => 0#1 ++ code.extractLsb 11 8
  | 0b010 => 0b10000#5
  | 0b011 => 0b10001#5
  | 0b100 => 0b10010#5
  | 0b110 => 0b10100#5
  | 0b111 => 0b01111#5
  | _ => 0b00000#5

def memWdataSel : MemWdataSel :=
  match line.extractLsb 45 45 with
  | 0b1 => .selYbus
  | _ => .selZbus

def memLock : Bool := line.getLsbD 46

def memAddrSel : MemAddrSel :=
  match line.extractLsb 48 47 with
  | 0b01 => .selZbus
  | 0b10 => .selYbus
  | _ => .selXbus

def maskintNext : Bool := line.getLsbD 49

def macStallSense : Bool := line.getLsbD 50

def macSLatch : Bool := line.getLsbD 51

def incpc : Bool := line.getLsbD 54

def immVal (code : BitVec 16) : BitVec 32 :=
  match line.extractLsb 59 55 with
  | 0b00011 => 0xffffffff#32
  | 0b00010 => 0x00000001#32
  | 0b00101 => 0xfffffffe#32
  | 0b00100 => 0x00000002#32
  | 0b00000 => 0x00000004#32
  | 0b00111 => 0xfffffff8#32
  | 0b00110 => 0x00000008#32
  | 0b01001 => 0xfffffff0#32
  | 0b01000 => 0x00000010#32
  | 0b10001 => immS12_1 code
  | 0b01101 => 0#24 ++ code.extractLsb 7 0
  | 0b01110 => 0#23 ++ code.extractLsb 7 0 ++ 0#1
  | 0b01111 => 0#22 ++ code.extractLsb 7 0 ++ 0#2
  | 0b10010 => immS8_0 code
  | 0b10000 => immS8_1 code
  | 0b01010 => 0#28 ++ code.extractLsb 3 0
  | 0b01011 => 0#27 ++ code.extractLsb 3 0 ++ 0#1
  | 0b01100 => 0#26 ++ code.extractLsb 3 0 ++ 0#2
  | _ => 0x00000000#32

def ilevelCap : Bool := line.getLsbD 60

def ifadsel : Bool := line.getLsbD 61

def ifIssue (tBcc : Bool) : Bool :=
  match line.extractLsb 63 62 with
  | 0b01 => true
  | 0b10 => tBcc
  | 0b11 => !tBcc
  | _ => false

def eventAck0 : Bool := line.getLsbD 64

def dispatch (tBcc : Bool) : Bool :=
  match line.extractLsb 66 65 with
  | 0b01 => true
  | 0b10 => tBcc
  | 0b11 => !tBcc
  | _ => false

def delayJump : Bool := line.getLsbD 67

def debug : Bool := line.getLsbD 68

def cpuDataMux : CpuDataMux :=
  match line.extractLsb 69 69 with
  | 0b1 => .coproc
  | _ => .dbus

def coprocCmd : CoprocCmd :=
  match line.extractLsb 71 70 with
  | 0b01 => .sts
  | 0b10 => .lds
  | 0b11 => .clds
  | _ => .nop

def arithCiEn : Bool := line.getLsbD 72

def aluinxSel : AluinxSel :=
  match line.extractLsb 74 73 with
  | 0b01 => .selZero
  | 0b10 => .selRotcl
  | 0b11 => .selFc
  | _ => .selXbus
end Signals

/-- The signals that the table derives from a microcode line, with the fields of
the operation code that it refers to. -/
def decodeLine (line : BitVec 75) (op : Operation) (tBcc nextIdStall : Bool) : TableLine where
  debug := debug line
  delayJump := delayJump line
  dispatch := dispatch line tBcc
  eventAck0 := eventAck0 line
  ex :=
    { immVal := immVal line op.code, xbusSel := xbusSel line, ybusSel := ybusSel line,
      regnumZ := regnumZ line op.code, regnumX := regnumX line op.code,
      regnumY := regnumY line op.code, alumanip := alumanip line, aluinxSel := aluinxSel line,
      aluinySel := aluinySel line, arithFunc := arithFunc line, arithCiEn := arithCiEn line,
      arithSrFunc := arithSrFunc line, logicFunc := logicFunc line,
      logicSrFunc := logicSrFunc line, macBusy := exMacBusy line nextIdStall, maWr := maWr line,
      memLock := memLock line, memSize := memSize line, coprocCmd := coprocCmd line }
  exStall :=
    { wrpcZ := wrpcZ line tBcc, wrsrZ := wrsrZ line, maIssue := maIssue line tBcc,
      wrprPc := wrprPc line, zbusSel := zbusSel line, srSel := srSel line, tSel := tSel line,
      memAddrSel := memAddrSel line, memWdataSel := memWdataSel line, wrregZ := wrregZ line,
      wrmach := exWrmach line, wrmacl := exWrmacl line, shiftfunc := shiftfunc line,
      mulcom1 := exMulcom1 line, mulcom2 := exMulcom2 line, macsel1 := exMacsel1 line,
      macsel2 := exMacsel2 line }
  id :=
    { incpc := incpc line, ifIssue := ifIssue line tBcc, ifadsel := ifadsel line }
  ilevelCap := ilevelCap line
  macSLatch := macSLatch line
  macStallSense := macStallSense line
  maskintNext := maskintNext line
  slp := slp line
  wb :=
    { regnumW := regnumW line op.code, macBusy := wbMacBusy line nextIdStall }
  wbStall :=
    { mulcom1 := wbMulcom1 line, wrmach := wbWrmach line, wrmacl := wbWrmacl line,
      wrregW := wrregW line, wrsrW := wrsrW line, macsel1 := wbMacsel1 line,
      macsel2 := wbMacsel2 line, mulcom2 := wbMulcom2 line, cpuDataMux := cpuDataMux line }

/-- The table: the signals of the line at the operation's address. -/
def decodeTable (op : Operation) (tBcc nextIdStall : Bool) : TableLine :=
  decodeLine (microcodeLine op.addr) op tBcc nextIdStall

end DecodeTable

end JCore
