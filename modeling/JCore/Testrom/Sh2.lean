import JCore.Testrom.Storage

/-!
# The processor below the GDB stub

The registers of the interrupted program, which GDB knows by numbers, and single steps. A
step finds out where the next instruction will go to, and puts a trap there.

## Main definitions

* `RegisterFileS`, `RegisterId`: the registers and their numbers
* `getStepiDest`: where the next instruction goes to
* `gdbStep`, `gdbMonitorOnentry`: the trap is put there, and taken away
* `StepsClear`, `Stub.EntersClear`: neither reaches into the monitor itself

## Main results

* `get_set`, `ofInt_eq_some_iff`: the register file is indexed by 23 numbers
-/

namespace JCore.Gdb

open Sim

/-! ### Registers -/

/-- `register_file_S`. -/
@[ext] structure RegisterFileS where
  pr : BitVec 32
  gbr : BitVec 32
  vbr : BitVec 32
  mach : BitVec 32
  macl : BitVec 32
  r : BitVec 4 → BitVec 32
  pc : BitVec 32
  sr : BitVec 32

/-- `register_id_E`. -/
inductive RegisterId where
  | r (n : BitVec 4)
  | pc | pr | gbr | vbr | mach | macl | sr
  deriving DecidableEq, Repr

namespace RegisterId

/-- The cases of the switches over a number. -/
def ofInt (id : BitVec 32) : Option RegisterId :=
  if id < 16 then some (r (id.setWidth 4))
  else if id = 16 then some pc
  else if id = 17 then some pr
  else if id = 18 then some gbr
  else if id = 19 then some vbr
  else if id = 20 then some mach
  else if id = 21 then some macl
  else if id = 22 then some sr
  else none

def toInt : RegisterId → BitVec 32
  | r n => n.setWidth 32
  | pc => 16
  | pr => 17
  | gbr => 18
  | vbr => 19
  | mach => 20
  | macl => 21
  | sr => 22

/-- The registers in the order of their numbers. -/
def all : List RegisterId :=
  (List.range 16).map (fun n => r (BitVec.ofNat 4 n)) ++ [pc, pr, gbr, vbr, mach, macl, sr]

end RegisterId

namespace RegisterFileS

variable (rf : RegisterFileS)

def get : RegisterId → BitVec 32
  | .r n => rf.r n
  | .pc => rf.pc
  | .pr => rf.pr
  | .gbr => rf.gbr
  | .vbr => rf.vbr
  | .mach => rf.mach
  | .macl => rf.macl
  | .sr => rf.sr

def set (id : RegisterId) (val : BitVec 32) : RegisterFileS :=
  match id with
  | .r n => { rf with r := fun k => if k = n then val else rf.r k }
  | .pc => { rf with pc := val }
  | .pr => { rf with pr := val }
  | .gbr => { rf with gbr := val }
  | .vbr => { rf with vbr := val }
  | .mach => { rf with mach := val }
  | .macl => { rf with macl := val }
  | .sr => { rf with sr := val }

end RegisterFileS

/-- `none` is the size 0. -/
def gdbPeekRegisterFile (rf : RegisterFileS) (id : BitVec 32) : Option (BitVec 32) :=
  (RegisterId.ofInt id).map rf.get

def gdbPokeRegisterFile (rf : RegisterFileS) (id val : BitVec 32) : RegisterFileS :=
  match RegisterId.ofInt id with
  | some register => rf.set register val
  | none => rf

/-! ### Single steps -/

/-- What the stub keeps: the registers of the program, its memory, and the word below the
trap, which is zero while there is none. What is said of the memory where the monitor itself
lies is never looked at. -/
@[ext] structure Stub where
  registerFile : RegisterFileS
  mem : ByteMemory
  steppedOpcode : BitVec 16

/-- `*(short *) a`. -/
def shortAt (mem : ByteMemory) (a : BitVec 32) : BitVec 16 := (loadAt mem .word a).setWidth 16

def storeShort (mem : ByteMemory) (a : BitVec 32) (op : BitVec 16) : ByteMemory :=
  storeAt mem .word a (op.signExtend 32)

/-- `*(long *) a`. -/
def longAt (mem : ByteMemory) (a : BitVec 32) : BitVec 32 := loadAt mem .long a

section Opcodes

variable (op : BitVec 16)

def opcodeBt : Bool := op &&& 0xff00 == 0x8900
def opcodeBf : Bool := op &&& 0xff00 == 0x8b00
def opcodeBfs : Bool := op &&& 0xff00 == 0x8f00
def opcodeBts : Bool := op &&& 0xff00 == 0x8d00
def opcodeBra : Bool := op &&& 0xf000 == 0xa000
def opcodeBraf : Bool := op &&& 0xf0ff == 0x0023
def opcodeBsr : Bool := op &&& 0xf000 == 0xb000
def opcodeBsrf : Bool := op &&& 0xf0ff == 0x0003
def opcodeJmp : Bool := op &&& 0xf0ff == 0x402b
def opcodeJsr : Bool := op &&& 0xf0ff == 0x400b
def opcodeRts : Bool := op == 0xb
def opcodeRte : Bool := op == 0x2b
def opcodeTrapa : Bool := op &&& 0xff00 == 0xc300

/-- `OPCODE_BTF_DISP`; `op` is extended by its sign first. -/
def opcodeBtfDisp : BitVec 32 :=
  let op := op.signExtend 32
  if op &&& 0x80 ≠ 0 then (op ||| 0xffffff80) <<< 1 else (op &&& 0x7f) <<< 1

/-- `OPCODE_BRA_DISP` and `OPCODE_BSR_DISP`. -/
def opcodeBraDisp : BitVec 32 :=
  let op := op.signExtend 32
  if op &&& 0x800 ≠ 0 then (op ||| 0xfffff800) <<< 1 else (op &&& 0x7ff) <<< 1

/-- `OPCODE_BRAF_REG` and those of the other jumps. -/
def opcodeReg : BitVec 4 := ((op &&& 0x0f00) >>> 8).setWidth 4

/-- `OPCODE_TRAPA_DISP`. -/
def opcodeTrapaDisp : BitVec 32 := (op &&& 0x00ff).setWidth 32

end Opcodes

def srTBitMask : BitVec 32 := 0x1

def stepOpcode : BitVec 16 := 0xc320

/-- `get_stepi_dest`. -/
def getStepiDest (rf : RegisterFileS) (mem : ByteMemory) : BitVec 32 :=
  let op := shortAt mem rf.pc
  let t := rf.sr &&& srTBitMask != 0
  if ((opcodeBt op || opcodeBts op) && t) || ((opcodeBf op || opcodeBfs op) && !t) then
    rf.pc + 4 + opcodeBtfDisp op
  else if opcodeBra op then rf.pc + 4 + opcodeBraDisp op
  else if opcodeBraf op then rf.pc + 4 + rf.r (opcodeReg op)
  else if opcodeBsr op then rf.pc + 4 + opcodeBraDisp op
  else if opcodeBsrf op then rf.pc + 4 + rf.r (opcodeReg op)
  else if opcodeJmp op then rf.r (opcodeReg op)
  else if opcodeJsr op then rf.r (opcodeReg op)
  else if opcodeRts op then rf.pr
  else if opcodeRte op then longAt mem (rf.r 15)
  else if opcodeTrapa op then longAt mem (rf.vbr + opcodeTrapaDisp op <<< 2)
  else rf.pc + 2

/-- An address that is zero is none. -/
def RegisterFileS.startAt (rf : RegisterFileS) (addr : BitVec 32) : RegisterFileS :=
  if addr ≠ 0 then { rf with pc := addr } else rf

/-- `gdb_step`, up to the return to the program. -/
def gdbStep (stub : Stub) (addr : BitVec 32) : Stub :=
  let rf := stub.registerFile.startAt addr
  let destAddr := getStepiDest rf stub.mem
  { registerFile := rf
    steppedOpcode := shortAt stub.mem destAddr
    mem := storeShort stub.mem destAddr stepOpcode }

/-- `gdb_continue`, up to the return to the program. -/
def gdbContinue (stub : Stub) (addr : BitVec 32) : Stub :=
  { stub with registerFile := stub.registerFile.startAt addr }

def gdbMonitorOnentry (stub : Stub) : Stub :=
  if stub.steppedOpcode ≠ 0 then
    { stub with
      mem := storeShort stub.mem stub.registerFile.pc stub.steppedOpcode
      steppedOpcode := 0 }
  else stub

/-- The accesses of a step from `pc`. -/
def stepUnits (rf : RegisterFileS) (mem : ByteMemory) : List (MemSize × BitVec 32) :=
  let op := shortAt mem rf.pc
  (.word, rf.pc) :: (.word, getStepiDest rf mem) ::
    ((if opcodeRte op then [(.long, rf.r 15)] else []) ++
      if opcodeTrapa op then [(.long, rf.vbr + opcodeTrapaDisp op <<< 2)] else [])

/-- The step does not reach into the monitor. -/
def StepsClear (own : Storage) (rf : RegisterFileS) (mem : ByteMemory) : Prop :=
  ∀ access ∈ stepUnits rf mem, own.ClearAt access

instance (own : Storage) (rf : RegisterFileS) (mem : ByteMemory) : Decidable (StepsClear own rf mem) :=
  inferInstanceAs (Decidable (∀ access ∈ stepUnits rf mem, own.ClearAt access))

/-- The trap that is taken away is not in the monitor. -/
def Stub.EntersClear (own : Storage) (stub : Stub) : Prop :=
  stub.steppedOpcode ≠ 0 → own.ClearAt (.word, stub.registerFile.pc)

instance (own : Storage) (stub : Stub) : Decidable (stub.EntersClear own) :=
  inferInstanceAs (Decidable (_ → _))

/-! ### Numbers of registers -/

namespace RegisterId

theorem ofInt_toInt (register : RegisterId) : ofInt register.toInt = some register := by
  cases register with
  | r n =>
    have all : ∀ n : BitVec 4, ofInt (n.setWidth 32) = some (r n) := by decide
    exact all n
  | _ => rfl

theorem ofInt_eq_some_iff {id : BitVec 32} {register : RegisterId} :
    ofInt id = some register ↔ id = register.toInt := by
  constructor
  · intro h
    rw [ofInt] at h
    split_ifs at h with small
    · rw [Option.some.injEq] at h
      subst h
      apply BitVec.eq_of_toNat_eq
      have bound : id.toNat < 16 := small
      rw [toInt, BitVec.toNat_setWidth, BitVec.toNat_setWidth, Nat.mod_eq_of_lt bound,
        Nat.mod_eq_of_lt (by omega)]
    all_goals
      rw [Option.some.injEq] at h
      subst h
      assumption
  · rintro rfl
    exact ofInt_toInt register

theorem toInt_lt (register : RegisterId) : register.toInt.toNat < 23 := by
  cases register with
  | r n =>
    rw [toInt, BitVec.toNat_setWidth]
    have := n.isLt
    omega
  | _ => decide

/-- The numbers of registers are those below 23. -/
theorem isSome_ofInt {id : BitVec 32} : (ofInt id).isSome = true ↔ id.toNat < 23 := by
  constructor
  · intro h
    obtain ⟨register, some⟩ := Option.isSome_iff_exists.mp h
    rw [ofInt_eq_some_iff.mp some]
    exact register.toInt_lt
  · intro h
    have id_eq : id = BitVec.ofNat 32 id.toNat := by rw [BitVec.ofNat_toNat, BitVec.setWidth_eq]
    rw [id_eq]
    generalize id.toNat = n at h
    interval_cases n <;> rfl

theorem all_getElem? (n : ℕ) : all[n]? = if n < 23 then ofInt (BitVec.ofNat 32 n) else none := by
  split_ifs with h
  · interval_cases n <;> rfl
  · rw [List.getElem?_eq_none]
    exact not_lt.mp h

end RegisterId

namespace RegisterFileS

theorem get_set (rf : RegisterFileS) (register other : RegisterId) (val : BitVec 32) :
    (rf.set register val).get other = if other = register then val else rf.get other := by
  cases register <;> cases other <;> simp [set, get]

end RegisterFileS

end JCore.Gdb
