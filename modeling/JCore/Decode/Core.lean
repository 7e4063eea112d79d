import JCore.Pack.Decode

/-!
# The decoder core

The entity `decode_core`: the choice of the operation to decode, the stalls,
and the registers that carry an operation from one microcode line to the next.

## Main definitions

* `DecodeCore.nextOp`: the operation to begin with at a dispatch boundary, a
  system operation for an event or an illegal instruction, or the fetched word
* `DecodeCore.op`: the operation presented to the decoder table
* `DecodeCore.regConf`, `DecodeCore.nextIdStall`: the stalls
* `DecodeCore.step`: one clock
-/

namespace JCore

/-- The variants of the decoder table. -/
inductive CpuDecodeType where
  | simple | direct | rom
  deriving DecidableEq, Repr

/-- The registers of the decoder core. -/
@[ext] structure DecodeCoreReg where
  maskint : Bool
  delaySlot : Bool
  idStall : Bool
  instrSeqZero : Bool
  op : Operation
  ilevel : BitVec 4
  deriving DecidableEq, Repr

def decCoreReset : DecodeCoreReg :=
  { maskint := false, delaySlot := false, idStall := false, instrSeqZero := false,
    op := { plane := .systemInstr, code := 0x0300, addr := 0x01 }, ilevel := 0 }

/-- The reset value for the microcode ROM, with another start address. -/
def decCoreRomReset : DecodeCoreReg :=
  { decCoreReset with op := { plane := .systemInstr, code := 0x0300, addr := 0xe2 } }

/-- The inputs from which the next operation is chosen. -/
structure DispatchI where
  eventI : CpuEventI
  enterDebug : Bool
  ibit : BitVec 4
  ifDr : BitVec 16
  illegalDelaySlot : Bool
  illegalInstr : Bool
  deriving DecidableEq, Repr

/-- The inputs of the core besides those of the dispatch: the table's line for
the operation presented, the pipeline and the stall requests. -/
structure DecodeCoreI where
  line : TableLine
  p : Pipeline
  ifStall : Bool
  macBusy : Bool
  maskintNext : Bool
  deriving DecidableEq, Repr

namespace DecodeCore

variable (decodeType : CpuDecodeType) (predecodeRomAddr : BitVec 16 → BitVec 8)

/-! ### Operations -/

/-- `system_op (code, instr)`. -/
def systemOp (code : BitVec 16) (instr : SystemInstr) : Operation :=
  { plane := .systemInstr, code := code,
    addr := if decodeType = .rom then systemInstrRomAddrs instr else 0x00 }

/-- `system_op (instr)`. -/
def systemOpInstr (instr : SystemInstr) : Operation :=
  systemOp decodeType (0x0#4 ++ systemInstrCodes instr ++ 0x00#8) instr

/-- `system_op (event)`. -/
def systemOpEvent (event : CpuEventI) : Operation :=
  systemOp decodeType (0x0#4 ++ systemEventCodes event.cmd ++ event.vec)
    (systemEventInstrs event.cmd)

def normalOp (instr : BitVec 16) : Operation :=
  { plane := .normalInstr, code := instr,
    addr := if decodeType = .rom then predecodeRomAddr instr else 0x00 }

variable (this : DecodeCoreReg) (front : DispatchI) (i : DecodeCoreI)

/-- An event is taken outside of a delay slot; an interrupt must also pass the
mask of the previous line and the level of the status register. -/
def eventTaken : Bool :=
  !this.delaySlot && front.eventI.en &&
    ((!this.maskint && front.eventI.cmd == .interrupt &&
        (decide (front.ibit < front.eventI.lvl) || front.eventI.msk)) ||
      (front.eventI.cmd == .error || front.eventI.cmd == .resetCpu || front.eventI.cmd == .break))

/-- The operation to begin with at a dispatch boundary. -/
def nextOp : Operation :=
  if eventTaken this front then systemOpEvent decodeType front.eventI
  else if this.delaySlot && (front.illegalDelaySlot || front.illegalInstr) then
    systemOpInstr decodeType .slotIllegal
  else if front.illegalInstr then systemOpInstr decodeType .generalIllegal
  else if !this.delaySlot && front.enterDebug then systemOpInstr decodeType .break
  else normalOp decodeType predecodeRomAddr front.ifDr

/-- The operation presented to the table: the latched one within an operation
and while a line is repeated, else the next one. -/
def op : Operation :=
  if this.idStall || !this.instrSeqZero then this.op
  else nextOp decodeType predecodeRomAddr this front

/-! ### Stalls -/

/-- A line that needs a register waits while a load of it is in the first
write-back stage. -/
def regConf (p : Pipeline) (ex : PipelineEx) (exStall : PipelineExStall) : Bool :=
  p.wb1Stall.wrregW &&
    ((ex.xbusSel == .selReg && ex.regnumX == p.wb1.regnumW) ||
      (ex.ybusSel == .selReg && ex.regnumY == p.wb1.regnumW) ||
      (exStall.wrregZ && ex.regnumZ == p.wb1.regnumW) ||
      -- register 0 beside the buses
      (ex.aluinySel == .selR0 && p.wb1.regnumW == 0b00000#5))

/-- A line that senses the multiplier waits until every pending use of it is
over. -/
def macStall : Bool :=
  i.line.macStallSense &&
    (i.p.wb1.macBusy || i.p.wb2.macBusy || i.p.wb3.macBusy || i.p.ex1.macBusy || i.macBusy)

/-- `next_id_stall_a`. -/
def nextIdStall : Bool := regConf i.p i.line.ex i.line.exStall || i.ifStall || macStall i

/-! ### Outputs -/

def incpc : Bool := i.line.id.incpc && !nextIdStall i

def instr : InstrCtrl :=
  { issue := i.line.id.ifIssue && !regConf i.p i.line.ex i.line.exStall && !macStall i
    addrSel := i.line.id.ifadsel }

def eventAck (slot : Bool) : Bool :=
  slot && (i.line.eventAck0 || (front.eventI.en && front.eventI.cmd == .break && i.line.debug))

/-! ### The clock -/

/-- One clock of the core. -/
def step (slot : Bool) : DecodeCoreReg :=
  if slot then
    let latched :=
      if !this.idStall && this.instrSeqZero then nextOp decodeType predecodeRomAddr this front
      else this.op
    let stall := nextIdStall i
    { maskint := i.maskintNext
      ilevel := if i.line.ilevelCap then front.eventI.lvl else this.ilevel
      idStall := stall
      delaySlot := if stall then this.delaySlot else i.line.delayJump
      instrSeqZero := if stall then this.instrSeqZero else i.line.dispatch
      -- the increment comes after the latch and applies to the new operation
      op := if stall then latched else { latched with addr := latched.addr + 1 } }
  else this

end DecodeCore

end JCore
