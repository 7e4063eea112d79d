import JCore.Isa.Machine
import JCore.Isa.Registers

/-!
# Instructions on memory

The instructions that load and store: what they do to the registers, SR and the memory,
and the lines of microcode that each of them has. Some of the lines pass a value on in a
register that no instruction names.

## Main definitions

* `IsaState`: what a program sees
* `MemInstr`, `MemInstr.ofCode`: the instructions, and the words that stand for them
* `MemInstr.exec`: what an instruction does
* `MemInstr.lines`: the fields of its microcode lines

## Main results

* `MemInstr.computes`: the lines do what the instruction is to do
-/

namespace JCore

open DecodeTable

/-! ### States -/

/-- The registers, SR and the memory as a program sees them. -/
@[ext] structure IsaState where
  regs : Regnum → BitVec 32
  sr : Sr
  mem : ByteMemory

def regGbr : Regnum := 0b10000#5

def regVbr : Regnum := 0b10001#5

/-- The registers beside the numbered ones that `LDC`, `STC`, `LDS` and `STS` name. -/
inductive Control where
  | sr | gbr | vbr | pr
  deriving DecidableEq, Repr

namespace IsaState

variable (S : IsaState)

def set (r : Regnum) (value : BitVec 32) : IsaState :=
  { S with regs := applyWrite S.regs (some (r, value)) }

theorem regs_set (r : Regnum) (value : BitVec 32) (k : Regnum) :
    (S.set r value).regs k = if k = r then value else S.regs k :=
  applyWrite_some _ _ _ _

def store (size : MemSize) (a data : BitVec 32) : IsaState :=
  { S with mem := storeAt S.mem size a data }

def setT (t : Bool) : IsaState := { S with sr := { S.sr with t := t } }

def control : Control → BitVec 32
  | .sr => Datapath.srToSlv S.sr
  | .gbr => S.regs regGbr
  | .vbr => S.regs regVbr
  | .pr => S.regs regPr

def setControl (c : Control) (value : BitVec 32) : IsaState :=
  match c with
  | .sr => { S with sr := Datapath.toSr value }
  | .gbr => S.set regGbr value
  | .vbr => S.set regVbr value
  | .pr => S.set regPr value

end IsaState

/-! ### The instructions -/

/-- The number of bytes of an access. -/
def MemSize.bytes : MemSize → BitVec 32
  | .byte => 1
  | .word => 2
  | .long => 4

/-- A displacement counts in units of the access. -/
def MemSize.scale (size : MemSize) (x : BitVec 32) : BitVec 32 :=
  match size with
  | .byte => x
  | .word => x <<< 1
  | .long => x <<< 2

/-- The last digit of a word. -/
def disp4 (code : BitVec 16) : BitVec 32 := 0#28 ++ code.extractLsb 3 0

/-- The operations on a byte of the memory. -/
inductive ByteLogic where
  | and | or | xor
  deriving DecidableEq, Repr

def ByteLogic.apply (op : ByteLogic) (x y : BitVec 32) : BitVec 32 :=
  match op with
  | .and => x &&& y
  | .or => x ||| y
  | .xor => x ^^^ y

/-- The instructions on the memory. -/
inductive MemInstr where
  | store (size : MemSize) | storeDec (size : MemSize) | storeIdx (size : MemSize)
  | storeDisp | storeDispR0 (word : Bool) | storeGbr (size : MemSize)
  | load (size : MemSize) | loadInc (size : MemSize) | loadIdx (size : MemSize)
  | loadDisp | loadDispR0 (word : Bool) | loadGbr (size : MemSize)
  | loadPcW | loadPcL
  | push (c : Control) | pop (c : Control)
  | tas | cas
  | tstB | logicB (op : ByteLogic)
  deriving DecidableEq, Repr

namespace MemInstr

def ofCode (code : BitVec 16) : Option MemInstr :=
  match codeGroup code with
  | 0x0 =>
    match (codeLow code).extractLsb 3 0 with
    | 0x4 => some (storeIdx .byte)
    | 0x5 => some (storeIdx .word)
    | 0x6 => some (storeIdx .long)
    | 0xc => some (loadIdx .byte)
    | 0xd => some (loadIdx .word)
    | 0xe => some (loadIdx .long)
    | _ => none
  | 0x1 => some storeDisp
  | 0x2 =>
    match (codeLow code).extractLsb 3 0 with
    | 0x0 => some (store .byte)
    | 0x1 => some (store .word)
    | 0x2 => some (store .long)
    | 0x3 => some cas
    | 0x4 => some (storeDec .byte)
    | 0x5 => some (storeDec .word)
    | 0x6 => some (storeDec .long)
    | _ => none
  | 0x4 =>
    match codeLow code with
    | 0x03 => some (push .sr)
    | 0x07 => some (pop .sr)
    | 0x13 => some (push .gbr)
    | 0x17 => some (pop .gbr)
    | 0x1b => some tas
    | 0x22 => some (push .pr)
    | 0x23 => some (push .vbr)
    | 0x26 => some (pop .pr)
    | 0x27 => some (pop .vbr)
    | _ => none
  | 0x5 => some loadDisp
  | 0x6 =>
    match (codeLow code).extractLsb 3 0 with
    | 0x0 => some (load .byte)
    | 0x1 => some (load .word)
    | 0x2 => some (load .long)
    | 0x4 => some (loadInc .byte)
    | 0x5 => some (loadInc .word)
    | 0x6 => some (loadInc .long)
    | _ => none
  | 0x8 =>
    match codeHigh code with
    | 0x0 => some (storeDispR0 false)
    | 0x1 => some (storeDispR0 true)
    | 0x4 => some (loadDispR0 false)
    | 0x5 => some (loadDispR0 true)
    | _ => none
  | 0x9 => some loadPcW
  | 0xc =>
    match codeHigh code with
    | 0x0 => some (storeGbr .byte)
    | 0x1 => some (storeGbr .word)
    | 0x2 => some (storeGbr .long)
    | 0x4 => some (loadGbr .byte)
    | 0x5 => some (loadGbr .word)
    | 0x6 => some (loadGbr .long)
    | 0xc => some tstB
    | 0xd => some (logicB .and)
    | 0xe => some (logicB .xor)
    | 0xf => some (logicB .or)
    | _ => none
  | 0xd => some loadPcL
  | _ => none

/-- The size of the accesses that have a byte or a word. -/
def narrow (word : Bool) : MemSize := if word then .word else .byte

/-- What the instruction `code` does at a PC four bytes behind it. -/
def exec (instr : MemInstr) (code : BitVec 16) (pc : BitVec 32) (S : IsaState) : IsaState :=
  let n := Branch.regN code
  let m := regM code
  let rn := S.regs n
  let rm := S.regs m
  let r0 := S.regs 0
  let gbr := S.regs regGbr
  match instr with
  | store size => S.store size rn rm
  | storeDec size => (S.set n (rn - size.bytes)).store size (rn - size.bytes) rm
  | storeIdx size => S.store size (rn + r0) rm
  | storeDisp => S.store .long (rn + MemSize.long.scale (disp4 code)) rm
  -- these name their base register in the third digit
  | storeDispR0 word => S.store (narrow word) (rm + (narrow word).scale (disp4 code)) r0
  | storeGbr size => S.store size (gbr + size.scale (immU8 code)) r0
  | load size => S.set n (loadAt S.mem size rm)
  | loadInc size => (S.set m (rm + size.bytes)).set n (loadAt S.mem size rm)
  | loadIdx size => S.set n (loadAt S.mem size (rm + r0))
  | loadDisp => S.set n (loadAt S.mem .long (rm + MemSize.long.scale (disp4 code)))
  | loadDispR0 word => S.set 0 (loadAt S.mem (narrow word) (rm + (narrow word).scale (disp4 code)))
  | loadGbr size => S.set 0 (loadAt S.mem size (gbr + size.scale (immU8 code)))
  | loadPcW => S.set n (loadAt S.mem .word (pc + MemSize.word.scale (immU8 code)))
  | loadPcL =>
    S.set n (loadAt S.mem .long ((pc.extractLsb' 2 30 ++ 0#2) + MemSize.long.scale (immU8 code)))
  | push c => (S.set n (rn - 4)).store .long (rn - 4) (S.control c)
  | pop c => (S.setControl c (loadAt S.mem .long rn)).set n (rn + 4)
  | tas =>
    (S.setT (loadAt S.mem .byte rn == 0)).store .byte rn (loadAt S.mem .byte rn ||| 0x80)
  -- what is compared, and where the store goes, is read behind the load
  | cas =>
    let L := S.set n (loadAt S.mem .long r0)
    let t := L.regs n == L.regs m
    if t then (L.setT t).store .long (L.regs 0) rn else L.setT t
  | tstB => S.setT (loadAt S.mem .byte (gbr + r0) &&& immU8 code == 0)
  | logicB op =>
    S.store .byte (gbr + r0) (op.apply (loadAt S.mem .byte (gbr + r0)) (immU8 code))

/-! ### The microcode -/

/-- The address of the first line. -/
def startAddr : MemInstr → BitVec 8
  | store .byte => 128
  | store .word => 129
  | store .long => 130
  | storeDec .byte => 145
  | storeDec .word => 146
  | storeDec .long => 147
  | storeIdx .byte => 148
  | storeIdx .word => 149
  | storeIdx .long => 150
  | storeDisp => 158
  | storeDispR0 false => 156
  | storeDispR0 true => 157
  | storeGbr .byte => 160
  | storeGbr .word => 161
  | storeGbr .long => 162
  | load .byte => 131
  | load .word => 132
  | load .long => 133
  | loadInc .byte => 139
  | loadInc .word => 141
  | loadInc .long => 143
  | loadIdx .byte => 151
  | loadIdx .word => 152
  | loadIdx .long => 153
  | loadDisp => 159
  | loadDispR0 false => 154
  | loadDispR0 true => 155
  | loadGbr .byte => 163
  | loadGbr .word => 164
  | loadGbr .long => 165
  | loadPcW => 181
  | loadPcL => 182
  | push .sr => 44
  | push .gbr => 46
  | push .vbr => 48
  | push .pr => 52
  | pop .sr => 67
  | pop .gbr => 70
  | pop .vbr => 73
  | pop .pr => 78
  | tas => 40
  | cas => 98
  | tstB => 189
  | logicB .and => 183
  | logicB .or => 186
  | logicB .xor => 192

end MemInstr

/-! ### Kinds of lines -/

namespace Line

/-- The sum of a register and a constant. -/
def offset (numX : BitVec 3) (numY : BitVec 5) (imm : BitVec 5) : Line :=
  { xSel := .selReg, numX := numX, numY := numY, zSel := .selArith, iny := .selImm, imm := imm }

/-- The sum of a register and register 0. -/
def indexed (numX : BitVec 3) (numY : BitVec 5) : Line :=
  { xSel := .selReg, numX := numX, numY := numY, zSel := .selArith, iny := .selR0 }

/-- A register is stored at the address on the Z bus. -/
def storing (line : Line) (size : MemSize) : Line :=
  { line with
    ySel := .selReg, maIssue := true, maWr := true, size := size, addrSel := .selZbus,
    wdataSel := .selYbus }

/-- A register is loaded from the address on the Z bus. -/
def loading (line : Line) (size : MemSize) (numW : BitVec 3) : Line :=
  { line with
    maIssue := true, size := size, addrSel := .selZbus, wrregW := true, numW := numW }

/-- The address is kept as well. -/
def keeping (line : Line) (numZ : BitVec 3) : Line := { line with wrregZ := true, numZ := numZ }

/-- The constant is subtracted. -/
def down (line : Line) : Line := { line with arithFunc := .sub }

end Line

namespace MemInstr

open Line

/-- The constant of a step. -/
def stepImm : MemSize → BitVec 5
  | .byte => 2
  | .word => 4
  | .long => 0

/-- The constants of displacements. -/
def dispImm : MemSize → BitVec 5
  | .byte => 10
  | .word => 11
  | .long => 12

def gbrImm : MemSize → BitVec 5
  | .byte => 13
  | .word => 14
  | .long => 15

def logicOf : ByteLogic → LogicFunc
  | .and => .logicAnd
  | .or => .logicOr
  | .xor => .logicXor

/-- The sum of GBR and register 0. -/
def gbrLine : Line :=
  { xSel := .selReg, numX := 5, ySel := .selReg, numY := 23, zSel := .selArith }

/-- The store of `CAS`, if T is set. -/
def swapLine (t : Bool) : Line :=
  { xSel := .selReg, numX := 3, ySel := .selReg, numY := 10, maIssue := t, maWr := true,
    size := .long, wdataSel := .selYbus }

/-- The fields of the lines, for each value of T. -/
def lines : MemInstr → List (Bool → Line)
  | store size => [fun _ => (offset 2 19 1).storing size]
  | storeDec size => [fun _ => (((offset 2 19 (stepImm size)).storing size).keeping 1).down]
  | storeIdx size => [fun _ => (indexed 2 20).storing size]
  | storeDisp => [fun _ => (offset 2 19 12).storing .long]
  | storeDispR0 word => [fun _ => (offset 4 22 (dispImm (narrow word))).storing (narrow word)]
  | storeGbr size => [fun _ => (offset 5 22 (gbrImm size)).storing size]
  | load size =>
    [fun _ => loading { ySel := .selReg, numY := 18, zSel := .selYbus } size 1]
  | loadInc size =>
    [fun _ => (offset 4 2 (stepImm size)).keeping 6,
      fun _ => ((offset 4 2 (stepImm size)).loading size 1).down]
  | loadIdx size => [fun _ => (indexed 4 21).loading size 1]
  | loadDisp => [fun _ => (offset 4 2 12).loading .long 1]
  | loadDispR0 word => [fun _ => (offset 4 2 (dispImm (narrow word))).loading (narrow word) 5]
  | loadGbr size => [fun _ => (offset 5 2 (gbrImm size)).loading size 5]
  | loadPcW => [fun _ => loading { xSel := .selPc, numY := 4, zSel := .selArith, imm := 14 } .word 1]
  | loadPcL =>
    [fun _ =>
      loading { xSel := .selPc, numY := 4, zSel := .selArith, inx := .selFc, imm := 15 } .long 1]
  | push .sr =>
    [fun _ => { (((offset 2 11 0).storing .long).keeping 1).down with ySel := .selSr }, fun _ => {}]
  | push .gbr => [fun _ => (((offset 2 12 0).storing .long).keeping 1).down, fun _ => {}]
  | push .vbr => [fun _ => (((offset 2 13 0).storing .long).keeping 1).down, fun _ => {}]
  | push .pr => [fun _ => (((offset 2 16 0).storing .long).keeping 1).down]
  | pop .sr =>
    [fun _ => { xSel := .selReg, numX := 2, wrsrW := true, maIssue := true, size := .long },
      fun _ => (offset 2 2 0).keeping 1, fun _ => {}]
  | pop .gbr =>
    [fun _ =>
        { xSel := .selReg, numX := 2, wrregW := true, numW := 2, maIssue := true, size := .long },
      fun _ => (offset 2 2 0).keeping 1, fun _ => {}]
  | pop .vbr =>
    [fun _ =>
        { xSel := .selReg, numX := 2, wrregW := true, numW := 3, maIssue := true, size := .long },
      fun _ => (offset 2 2 0).keeping 1, fun _ => {}]
  | pop .pr =>
    [fun _ =>
        { xSel := .selReg, numX := 2, wrregW := true, numW := 4, maIssue := true, size := .long },
      fun _ => (offset 2 2 0).keeping 1]
  | tas =>
    [fun _ => { xSel := .selReg, numX := 2, wrregW := true, maIssue := true }, fun _ => {},
      fun _ =>
        { xSel := .selReg, numX := 2, ySel := .selReg, numY := 10, zSel := .selManip,
          inx := .selZero, srSel := .selArith, manip := .setBit7, maIssue := true, maWr := true },
      fun _ => {}]
  | cas =>
    [fun _ => { ySel := .selReg, numY := 17, zSel := .selYbus, wrregZ := true, numZ := 5 },
      fun _ =>
        { xSel := .selReg, numX := 3, wrregW := true, numW := 1, maIssue := true, size := .long },
      fun _ =>
        { xSel := .selReg, numX := 2, ySel := .selReg, numY := 18, srSel := .selLogic,
          logicFunc := .logicXor },
      swapLine]
  | tstB =>
    [fun _ => gbrLine.loading .byte 6,
      fun _ => {},
      fun _ =>
        { xSel := .selReg, numY := 2, iny := .selImm, imm := 13, srSel := .selLogic,
          logicFunc := .logicAnd }]
  | logicB op =>
    [fun _ => gbrLine.loading .byte 6,
      fun _ => gbrLine.keeping 5,
      fun _ =>
        { xSel := .selReg, ySel := .selReg, numY := 24, iny := .selImm, imm := 13,
          logicFunc := logicOf op, maIssue := true, maWr := true, addrSel := .selYbus }]

end MemInstr

/-! ### Lines one after the other -/

/-- The lines from an address on are the given ones, and the last one moves PC on. -/
def coded : List (Bool → Line) → BitVec 8 → Bool
  | [], _ => false
  | line :: rest, addr =>
    Line.ofRom (microcodeLine addr) true == line true &&
      Line.ofRom (microcodeLine addr) false == line false &&
      incpc (microcodeLine addr) == rest.isEmpty && (rest.isEmpty || coded rest (addr + 1))

namespace Machine

/-- The lines are carried out. -/
def runLines (code : BitVec 16) (counter : BitVec 32) : List (Bool → Line) → Machine → Machine
  | [], M => M
  | [line], M => (line M.sr.t).exec code (counter + 2) M
  | line :: rest, M => runLines code counter rest ((line M.sr.t).exec code counter M)

theorem runLines_singleton (code : BitVec 16) (counter : BitVec 32) (line : Bool → Line) (M : Machine) :
    M.runLines code counter [line] = (line M.sr.t).exec code (counter + 2) M := rfl

theorem runLines_cons (code : BitVec 16) (counter : BitVec 32) (line next : Bool → Line)
    (rest : List (Bool → Line)) (M : Machine) : M.runLines code counter (line :: next :: rest) =
      ((line M.sr.t).exec code counter M).runLines code counter (next :: rest) := rfl

/-- The lines of an operation are those that it is coded by. -/
theorem finish_eq_runLines {code : BitVec 16} {counter : BitVec 32} {lines : List (Bool → Line)}
    {addr : BitVec 8} {n : ℕ} (h : coded lines addr = true) (short : lines.length ≤ n) (M : Machine) :
    M.finish code counter n addr = M.runLines code counter lines := by
  induction lines generalizing addr n M with
  | nil => exact absurd h Bool.false_ne_true
  | cons line rest ih =>
    obtain _ | n := n
    · exact absurd short (Nat.not_succ_le_zero _)
    rw [coded, Bool.and_eq_true, Bool.and_eq_true, Bool.and_eq_true, beq_iff_eq, beq_iff_eq,
      beq_iff_eq] at h
    obtain ⟨⟨⟨ofTrue, ofFalse⟩, last⟩, more⟩ := h
    have here : ∀ t, Line.ofRom (microcodeLine addr) t = line t := fun t => by
      cases t
      · exact ofFalse
      · exact ofTrue
    cases rest with
    | nil =>
      rw [finish, last, here]
      rfl
    | cons next rest =>
      rw [finish, last, here]
      exact ih more (Nat.le_of_succ_le_succ short) _

end Machine

namespace MemInstr

theorem coded_lines (instr : MemInstr) : coded instr.lines instr.startAddr = true := by
  rcases instr with ⟨⟨⟩⟩ | ⟨⟨⟩⟩ | ⟨⟨⟩⟩ | _ | ⟨⟨⟩⟩ | ⟨⟨⟩⟩ | ⟨⟨⟩⟩ | ⟨⟨⟩⟩ | ⟨⟨⟩⟩ | _ | ⟨⟨⟩⟩ | ⟨⟨⟩⟩ | _ | _ |
    ⟨⟨⟩⟩ | ⟨⟨⟩⟩ | _ | _ | _ | ⟨⟨⟩⟩ <;> decide +kernel

end MemInstr

/-! ### What the lines do -/

namespace Machine

variable (M : Machine)

def set (r : Regnum) (value : BitVec 32) : Machine :=
  { M with regs := M.regs.write (some (r, value)) }

def store (size : MemSize) (a data : BitVec 32) : Machine :=
  { M with mem := storeAt M.mem size a data }

def setT (t : Bool) : Machine := { M with sr := { M.sr with t := t } }

theorem regs_set (r : Regnum) (value : BitVec 32) (port : ReadPort) (k : Regnum) :
    (M.set r value).regs port k = if k = r then value else M.regs port k :=
  applyWrite_some _ _ _ _

/-- A register that a port can read and an instruction can name. -/
def Visible (port : ReadPort) (r : Regnum) : Prop := r.toNat < 19 ∧ (port = .zero → r = 0)

/-- The machine without the registers that no instruction names, and with one copy of
each of the others. -/
structure Agrees (S : IsaState) : Prop where
  regs : ∀ port r, Visible port r → M.regs port r = S.regs r
  sr : M.sr = S.sr
  mem : M.mem = S.mem

variable {M} {S : IsaState} {r : Regnum} {value value' : BitVec 32}

theorem Agrees.set (h : M.Agrees S) (same : value = value') :
    (M.set r value).Agrees (S.set r value') where
  regs port k visible := by
    rw [regs_set, IsaState.regs_set, h.regs port k visible, same]
  sr := h.sr
  mem := h.mem

/-- The other registers are hidden. -/
theorem Agrees.hide (h : M.Agrees S) (hidden : 19 ≤ r.toNat) : (M.set r value).Agrees S where
  regs port k visible := by
    have other : k ≠ r := by
      rintro rfl
      exact absurd visible.1 (Nat.not_lt.mpr hidden)
    rw [regs_set, if_neg other, h.regs port k visible]
  sr := h.sr
  mem := h.mem

theorem Agrees.store (h : M.Agrees S) {size : MemSize} {a a' data data' : BitVec 32} (address : a = a')
    (same : data = data') : (M.store size a data).Agrees (S.store size a' data') where
  regs := h.regs
  sr := h.sr
  mem := by
    show storeAt M.mem size a data = storeAt S.mem size a' data'
    rw [h.mem, address, same]

theorem Agrees.setT (h : M.Agrees S) {t t' : Bool} (same : t = t') :
    (M.setT t).Agrees (S.setT t') where
  regs := h.regs
  sr := by
    show { M.sr with t := t } = { S.sr with t := t' }
    rw [h.sr, same]
  mem := h.mem

end Machine

/-- The registers that a word names have small numbers. -/
theorem toNat_digit (x : BitVec 4) : (0#1 ++ x).toNat < 16 := by
  have all : ∀ x : BitVec 4, (0#1 ++ x).toNat < 16 := by decide
  exact all x

theorem regN_lt (code : BitVec 16) : (Branch.regN code).toNat < 16 := toNat_digit _

theorem regM_lt (code : BitVec 16) : (regM code).toNat < 16 := toNat_digit _

namespace Machine.Agrees

variable {M : Machine} {S : IsaState} {code : BitVec 16} (h : M.Agrees S)
include h

theorem a {r : Regnum} (named : r.toNat < 19) : M.regs .a r = S.regs r := h.regs .a r ⟨named, nofun⟩

theorem b {r : Regnum} (named : r.toNat < 19) : M.regs .b r = S.regs r := h.regs .b r ⟨named, nofun⟩

theorem zero : M.regs .zero 0 = S.regs 0 := h.regs .zero 0 ⟨by decide, fun _ => rfl⟩

theorem aN : M.regs .a (Branch.regN code) = S.regs (Branch.regN code) :=
  h.a (Nat.lt_of_lt_of_le (regN_lt code) (by decide))

theorem bN : M.regs .b (Branch.regN code) = S.regs (Branch.regN code) :=
  h.b (Nat.lt_of_lt_of_le (regN_lt code) (by decide))

theorem aM : M.regs .a (regM code) = S.regs (regM code) :=
  h.a (Nat.lt_of_lt_of_le (regM_lt code) (by decide))

theorem bM : M.regs .b (regM code) = S.regs (regM code) :=
  h.b (Nat.lt_of_lt_of_le (regM_lt code) (by decide))

theorem load {size : MemSize} {a a' : BitVec 32} (same : a = a') :
    loadAt M.mem size a = loadAt S.mem size a' := by rw [h.mem, same]

end Machine.Agrees

/-! ### Displacements -/

section Displacements

variable (code : BitVec 16)

theorem scale_disp4 : ∀ size : MemSize, (MemInstr.dispImm size |> fun imm => Line.immVal { imm := imm } code) =
    size.scale (disp4 code) := by
  intro size
  cases size with
  | byte => rfl
  | word =>
    show (0#27 ++ code.extractLsb 3 0 ++ 0#1 : BitVec 32) = (0#28 ++ code.extractLsb 3 0) <<< 1
    apply BitVec.eq_of_getLsbD_eq
    intro i hi
    rw [BitVec.getLsbD_shiftLeft]
    simp only [BitVec.getLsbD_append]
    interval_cases i <;> simp
  | long =>
    show (0#26 ++ code.extractLsb 3 0 ++ 0#2 : BitVec 32) = (0#28 ++ code.extractLsb 3 0) <<< 2
    apply BitVec.eq_of_getLsbD_eq
    intro i hi
    rw [BitVec.getLsbD_shiftLeft]
    simp only [BitVec.getLsbD_append]
    interval_cases i <;> simp

theorem scale_immU8 : ∀ size : MemSize, (MemInstr.gbrImm size |> fun imm => Line.immVal { imm := imm } code) =
    size.scale (immU8 code) := by
  intro size
  cases size with
  | byte => rfl
  | word =>
    show (0#23 ++ code.extractLsb 7 0 ++ 0#1 : BitVec 32) = (0#24 ++ code.extractLsb 7 0) <<< 1
    apply BitVec.eq_of_getLsbD_eq
    intro i hi
    rw [BitVec.getLsbD_shiftLeft]
    simp only [BitVec.getLsbD_append]
    interval_cases i <;> simp
  | long =>
    show (0#22 ++ code.extractLsb 7 0 ++ 0#2 : BitVec 32) = (0#24 ++ code.extractLsb 7 0) <<< 2
    apply BitVec.eq_of_getLsbD_eq
    intro i hi
    rw [BitVec.getLsbD_shiftLeft]
    simp only [BitVec.getLsbD_append]
    interval_cases i <;> simp

end Displacements

theorem manip_setBit7 (x y : BitVec 32) : manip x y .setBit7 = y ||| 0x80 := by
  have bytes : manip x y .setBit7 = byteAt y 3 ++ byteAt y 2 ++ byteAt y 1 ++ (1#1 ++ y.extractLsb' 0 7) :=
    rfl
  rw [bytes]
  apply BitVec.eq_of_getLsbD_eq
  intro i hi
  simp only [byteAt, BitVec.getLsbD_append, BitVec.getLsbD_extractLsb', BitVec.getLsbD_or]
  interval_cases i <;> simp

namespace MemInstr

open Machine Line

/-- The lines do what the instruction is to do. -/
def Computes (instr : MemInstr) : Prop :=
  ∀ code counter M S, Machine.Agrees M S →
    (M.runLines code counter instr.lines).Agrees (instr.exec code (counter + 2) S)

section Single

variable (size : MemSize) (word : Bool)

theorem computes_store : (store size).Computes := by
  intro code counter M S h
  have run : M.runLines code counter (store size).lines =
      M.store size (M.regs .a (Branch.regN code)) (M.regs .b (regM code)) :=
    congrArg (fun a => M.store size a _) ((arithUnit_add_zero _ _).trans (BitVec.add_zero _))
  rw [run]
  exact h.store h.aN h.bM

theorem computes_storeDec : (storeDec size).Computes := by
  intro code counter M S h
  have run : M.runLines code counter (storeDec size).lines =
      (M.set (Branch.regN code) (M.regs .a (Branch.regN code) - size.bytes)).store size
        (M.regs .a (Branch.regN code) - size.bytes) (M.regs .b (regM code)) := by
    cases size <;>
      exact congrArg (fun a => (M.set (Branch.regN code) a).store _ a _) (arithUnit_sub_zero _ _)
  have down : M.regs .a (Branch.regN code) - size.bytes = S.regs (Branch.regN code) - size.bytes := by
    rw [h.aN]
  rw [run]
  exact (h.set down).store down h.bM

theorem computes_storeIdx : (storeIdx size).Computes := by
  intro code counter M S h
  have run : M.runLines code counter (storeIdx size).lines =
      M.store size (M.regs .a (Branch.regN code) + M.regs .zero 0) (M.regs .b (regM code)) :=
    congrArg (fun a => M.store size a _) (arithUnit_add_zero _ _)
  rw [run]
  exact h.store (congrArg₂ (· + ·) h.aN h.zero) h.bM

theorem computes_storeDisp : storeDisp.Computes := by
  intro code counter M S h
  have run : M.runLines code counter storeDisp.lines =
      M.store .long (M.regs .a (Branch.regN code) + MemSize.long.scale (disp4 code))
        (M.regs .b (regM code)) := by
    rw [← scale_disp4]
    exact congrArg (fun a => M.store .long a _) (arithUnit_add_zero _ _)
  rw [run]
  exact h.store (congrArg (· + _) h.aN) h.bM

theorem computes_storeDispR0 : (storeDispR0 word).Computes := by
  intro code counter M S h
  have run : M.runLines code counter (storeDispR0 word).lines =
      M.store (narrow word) (M.regs .a (regM code) + (narrow word).scale (disp4 code))
        (M.regs .b 0) := by
    rw [← scale_disp4]
    exact congrArg (fun a => M.store (narrow word) a _) (arithUnit_add_zero _ _)
  rw [run]
  exact h.store (congrArg (· + _) h.aM) (h.b (by decide))

theorem computes_storeGbr : (storeGbr size).Computes := by
  intro code counter M S h
  have run : M.runLines code counter (storeGbr size).lines =
      M.store size (M.regs .a regGbr + size.scale (immU8 code)) (M.regs .b 0) := by
    rw [← scale_immU8]
    exact congrArg (fun a => M.store size a _) (arithUnit_add_zero _ _)
  rw [run]
  exact h.store (congrArg (· + _) (h.a (by decide))) (h.b (by decide))

theorem computes_load : (load size).Computes := by
  intro code counter M S h
  have run : M.runLines code counter (load size).lines =
      M.set (Branch.regN code) (loadAt M.mem size (M.regs .b (regM code))) := rfl
  rw [run]
  exact h.set (h.load h.bM)

theorem computes_loadIdx : (loadIdx size).Computes := by
  intro code counter M S h
  have run : M.runLines code counter (loadIdx size).lines =
      M.set (Branch.regN code) (loadAt M.mem size (M.regs .a (regM code) + M.regs .zero 0)) :=
    congrArg (fun a => M.set _ (loadAt M.mem size a)) (arithUnit_add_zero _ _)
  rw [run]
  exact h.set (h.load (congrArg₂ (· + ·) h.aM h.zero))

theorem computes_loadDisp : loadDisp.Computes := by
  intro code counter M S h
  have run : M.runLines code counter loadDisp.lines =
      M.set (Branch.regN code)
        (loadAt M.mem .long (M.regs .a (regM code) + MemSize.long.scale (disp4 code))) := by
    rw [← scale_disp4]
    exact congrArg (fun a => M.set _ (loadAt M.mem .long a)) (arithUnit_add_zero _ _)
  rw [run]
  exact h.set (h.load (congrArg (· + _) h.aM))

theorem computes_loadDispR0 : (loadDispR0 word).Computes := by
  intro code counter M S h
  have run : M.runLines code counter (loadDispR0 word).lines =
      M.set 0 (loadAt M.mem (narrow word) (M.regs .a (regM code) + (narrow word).scale (disp4 code))) := by
    rw [← scale_disp4]
    exact congrArg (fun a => M.set 0 (loadAt M.mem (narrow word) a)) (arithUnit_add_zero _ _)
  rw [run]
  exact h.set (h.load (congrArg (· + _) h.aM))

theorem computes_loadGbr : (loadGbr size).Computes := by
  intro code counter M S h
  have run : M.runLines code counter (loadGbr size).lines =
      M.set 0 (loadAt M.mem size (M.regs .a regGbr + size.scale (immU8 code))) := by
    rw [← scale_immU8]
    exact congrArg (fun a => M.set 0 (loadAt M.mem size a)) (arithUnit_add_zero _ _)
  rw [run]
  exact h.set (h.load (congrArg (· + _) (h.a (by decide))))

theorem computes_loadPcW : loadPcW.Computes := by
  intro code counter M S h
  have run : M.runLines code counter loadPcW.lines =
      M.set (Branch.regN code) (loadAt M.mem .word (counter + 2 + MemSize.word.scale (immU8 code))) := by
    rw [← scale_immU8]
    exact congrArg (fun a => M.set _ (loadAt M.mem .word a)) (arithUnit_add_zero _ _)
  rw [run]
  exact h.set (h.load rfl)

theorem computes_loadPcL : loadPcL.Computes := by
  intro code counter M S h
  have run : M.runLines code counter loadPcL.lines =
      M.set (Branch.regN code) (loadAt M.mem .long
        (((counter + 2).extractLsb' 2 30 ++ 0#2) + MemSize.long.scale (immU8 code))) := by
    rw [← scale_immU8]
    exact congrArg (fun a => M.set _ (loadAt M.mem .long a)) (arithUnit_add_zero _ _)
  rw [run]
  exact h.set (h.load rfl)

end Single

theorem computes_loadInc (size : MemSize) : (loadInc size).Computes := by
  intro code counter M S h
  -- the second line takes back what the first one added
  have back : ((M.set (regM code) (M.regs .a (regM code) + size.bytes)).regs .a (regM code)) - size.bytes =
      M.regs .a (regM code) := by
    rw [regs_set, if_pos rfl, BitVec.add_sub_cancel]
  have first : ((offset 4 2 (stepImm size)).keeping 6).exec code counter M =
      M.set (regM code) (M.regs .a (regM code) + size.bytes) := by
    cases size <;> exact congrArg (M.set (regM code)) (arithUnit_add_zero _ _)
  have second : ∀ M, (((offset 4 2 (stepImm size)).loading size 1).down).exec code (counter + 2) M =
      M.set (Branch.regN code) (loadAt M.mem size (M.regs .a (regM code) - size.bytes)) := by
    intro M
    cases size <;> exact congrArg (fun a => M.set _ (loadAt M.mem _ a)) (arithUnit_sub_zero _ _)
  have run : M.runLines code counter (loadInc size).lines =
      (M.set (regM code) (M.regs .a (regM code) + size.bytes)).set (Branch.regN code)
        (loadAt M.mem size (M.regs .a (regM code))) := by
    rw [lines, runLines_cons, runLines_singleton, first, second, back]
    rfl
  rw [run]
  exact (h.set (congrArg (· + _) h.aM)).set (h.load h.aM)

theorem computes_push (c : Control) : (push c).Computes := by
  intro code counter M S h
  have run : ∀ value, M.runLines code counter (push c).lines =
        (M.set (Branch.regN code) ((arithUnit (M.regs .a (Branch.regN code)) 4 .sub false).extractLsb' 0 32)).store
          .long ((arithUnit (M.regs .a (Branch.regN code)) 4 .sub false).extractLsb' 0 32) value →
      value = S.control c →
      (M.runLines code counter (push c).lines).Agrees ((push c).exec code (counter + 2) S) := by
    intro value run same
    have down : (arithUnit (M.regs .a (Branch.regN code)) 4 .sub false).extractLsb' 0 32 =
        S.regs (Branch.regN code) - 4 := by
      rw [arithUnit_sub_zero, h.aN]
    rw [run]
    exact (h.set down).store down same
  cases c with
  | sr => exact run (Datapath.srToSlv M.sr) rfl (congrArg Datapath.srToSlv h.sr)
  | gbr => exact run (M.regs .b regGbr) rfl (h.b (by decide))
  | vbr => exact run (M.regs .b regVbr) rfl (h.b (by decide))
  | pr => exact run (M.regs .b regPr) rfl (h.b (by decide))

theorem computes_pop (c : Control) : (pop c).Computes := by
  intro code counter M S h
  have run : ∀ M', Machine.Agrees M' (S.setControl c (loadAt S.mem .long (S.regs (Branch.regN code)))) →
      M'.regs .a (Branch.regN code) = M.regs .a (Branch.regN code) →
      M.runLines code counter (pop c).lines =
        M'.set (Branch.regN code) ((arithUnit (M'.regs .a (Branch.regN code)) 4 .add false).extractLsb' 0 32) →
      (M.runLines code counter (pop c).lines).Agrees ((pop c).exec code (counter + 2) S) := by
    intro M' agrees same run
    rw [run, arithUnit_add_zero, same, h.aN]
    exact agrees.set rfl
  have datum : loadAt M.mem .long (M.regs .a (Branch.regN code)) =
    loadAt S.mem .long (S.regs (Branch.regN code)) := h.load h.aN
  have apart : ∀ r : Regnum, 16 ≤ r.toNat → Branch.regN code ≠ r := by
    rintro r big rfl
    exact absurd (regN_lt code) (Nat.not_lt.mpr big)
  have other : ∀ r value, 16 ≤ r.toNat →
      (M.set r value).regs .a (Branch.regN code) = M.regs .a (Branch.regN code) := by
    intro r value big
    rw [regs_set, if_neg (apart r big)]
  cases c with
  | sr =>
    refine run { M with sr := Datapath.toSr (loadAt M.mem .long (M.regs .a (Branch.regN code))) } ?_ rfl rfl
    exact ⟨h.regs, congrArg Datapath.toSr datum, h.mem⟩
  | gbr => exact run (M.set regGbr _) (h.set datum) (other _ _ (by decide)) rfl
  | vbr => exact run (M.set regVbr _) (h.set datum) (other _ _ (by decide)) rfl
  | pr => exact run (M.set regPr _) (h.set datum) (other _ _ (by decide)) rfl

theorem computes_tas : tas.Computes := by
  intro code counter M S h
  let datum := loadAt M.mem .byte (M.regs .a (Branch.regN code))
  let M1 := M.set 0b10011#5 datum
  have address : M1.regs .a (Branch.regN code) = M.regs .a (Branch.regN code) := by
    have apart : Branch.regN code ≠ 0b10011#5 := by
      intro same
      exact absurd (regN_lt code) (by rw [same]; decide)
    rw [regs_set, if_neg apart]
  have byte : M1.regs .b 0b10011#5 = datum := by rw [regs_set, if_pos rfl]
  have zero : isZero ((arithUnit 0 (M1.regs .b 0b10011#5) .add false).extractLsb' 0 32) = (datum == 0) := by
    rw [arithUnit_add_zero, isZero_eq_beq, byte]
    exact congrArg (· == 0) (BitVec.zero_add datum)
  have run : M.runLines code counter tas.lines =
      (M1.setT (isZero ((arithUnit 0 (M1.regs .b 0b10011#5) .add false).extractLsb' 0 32))).store .byte
        (M1.regs .a (Branch.regN code))
        (manip (M1.regs .a (Branch.regN code)) (M1.regs .b 0b10011#5) .setBit7) := rfl
  have same : datum = loadAt S.mem .byte (S.regs (Branch.regN code)) := h.load h.aN
  rw [run, zero, address, byte, manip_setBit7]
  exact ((h.hide (by decide)).setT (congrArg (· == 0) same)).store h.aN (congrArg (· ||| 0x80) same)

theorem computes_cas : cas.Computes := by
  intro code counter M S h
  let M1 := M.set 0b10011#5 (M.regs .b (Branch.regN code))
  let M2 := M1.set (Branch.regN code) (loadAt M1.mem .long (M1.regs .a 0))
  let t := isZero (M2.regs .a (Branch.regN code) ^^^ M2.regs .b (regM code))
  have h1 : M1.Agrees S := h.hide (by decide)
  have h2 : M2.Agrees (S.set (Branch.regN code) (loadAt S.mem .long (S.regs 0))) :=
    h1.set (h1.load (h1.a (by decide)))
  have old : M2.regs .b 0b10011#5 = S.regs (Branch.regN code) := by
    have apart : 0b10011#5 ≠ Branch.regN code := by
      intro same
      exact absurd (regN_lt code) (by rw [← same]; decide)
    rw [regs_set, if_neg apart, regs_set, if_pos rfl, h.bN]
  have run : M.runLines code counter cas.lines =
      if t then (M2.setT t).store .long (M2.regs .a 0) (M2.regs .b 0b10011#5) else M2.setT t := by
    have last : M.runLines code counter cas.lines =
      (swapLine t).exec code (counter + 2) (M2.setT t) := rfl
    rw [last]
    cases t <;> rfl
  have compare : t = ((S.set (Branch.regN code) (loadAt S.mem .long (S.regs 0))).regs (Branch.regN code) ==
      (S.set (Branch.regN code) (loadAt S.mem .long (S.regs 0))).regs (regM code)) := by
    show isZero _ = _
    rw [isZero_xor, h2.aN, h2.bM]
  rw [run, exec]
  cases ht : t with
  | true =>
    rw [ht] at compare
    rw [if_pos rfl, ← compare, if_pos rfl]
    exact (h2.setT rfl).store (h2.a (by decide)) old
  | false =>
    rw [ht] at compare
    rw [if_neg Bool.false_ne_true, ← compare, if_neg Bool.false_ne_true]
    exact h2.setT rfl

section Bytes

variable {M : Machine} {S : IsaState}

/-- The byte that the operations with GBR work on. -/
theorem gbrByte (h : M.Agrees S) : loadAt M.mem .byte (M.regs .a regGbr + M.regs .b 0) =
    loadAt S.mem .byte (S.regs regGbr + S.regs 0) :=
  h.load (congrArg₂ (· + ·) (h.a (by decide)) (h.b (by decide)))

theorem computes_tstB : tstB.Computes := by
  intro code counter M S h
  let M1 := M.set 0b10100#5 (loadAt M.mem .byte (M.regs .a regGbr + M.regs .b 0))
  have first : (gbrLine.loading .byte 6).exec code counter M = M1 :=
    congrArg (fun a => M.set 0b10100#5 (loadAt M.mem .byte a)) (arithUnit_add_zero _ _)
  have byte : M1.regs .a 0b10100#5 = loadAt M.mem .byte (M.regs .a regGbr + M.regs .b 0) := by
    rw [regs_set, if_pos rfl]
  have run : M.runLines code counter tstB.lines =
      M1.setT (isZero (M1.regs .a 0b10100#5 &&& immU8 code)) := by
    rw [lines, runLines_cons, first]
    rfl
  rw [run, isZero_eq_beq, byte]
  exact (h.hide (by decide)).setT (congrArg (fun x => x &&& immU8 code == 0) (gbrByte h))

theorem computes_logicB (op : ByteLogic) : (logicB op).Computes := by
  intro code counter M S h
  let a := M.regs .a regGbr + M.regs .b 0
  let M1 := M.set 0b10100#5 (loadAt M.mem .byte a)
  let M2 := M1.set 0b10011#5 a
  have first : (gbrLine.loading .byte 6).exec code counter M = M1 :=
    congrArg (fun a => M.set 0b10100#5 (loadAt M.mem .byte a)) (arithUnit_add_zero _ _)
  have second : (gbrLine.keeping 5).exec code counter M1 = M2 :=
    congrArg (M1.set 0b10011#5) (arithUnit_add_zero _ _)
  have byte : M2.regs .a 0b10100#5 = loadAt M.mem .byte a := by
    rw [regs_set, if_neg (by decide), regs_set, if_pos rfl]
  have address : M2.regs .b 0b10011#5 = a := by rw [regs_set, if_pos rfl]
  have run : M.runLines code counter (logicB op).lines = M2.store .byte (M2.regs .b 0b10011#5)
      (op.apply (M2.regs .a 0b10100#5) (immU8 code)) := by
    rw [lines, runLines_cons, first, runLines_cons, second]
    cases op <;> rfl
  have same : a = S.regs regGbr + S.regs 0 := congrArg₂ (· + ·) (h.a (by decide)) (h.b (by decide))
  rw [run, address, byte]
  exact ((h.hide (by decide)).hide (by decide)).store same
    (congrArg (op.apply · (immU8 code)) (h.load same))

end Bytes

/-- Every instruction is what its lines do. -/
theorem computes (instr : MemInstr) : instr.Computes := by
  cases instr with
  | store size => exact computes_store size
  | storeDec size => exact computes_storeDec size
  | storeIdx size => exact computes_storeIdx size
  | storeDisp => exact computes_storeDisp
  | storeDispR0 word => exact computes_storeDispR0 word
  | storeGbr size => exact computes_storeGbr size
  | load size => exact computes_load size
  | loadInc size => exact computes_loadInc size
  | loadIdx size => exact computes_loadIdx size
  | loadDisp => exact computes_loadDisp
  | loadDispR0 word => exact computes_loadDispR0 word
  | loadGbr size => exact computes_loadGbr size
  | loadPcW => exact computes_loadPcW
  | loadPcL => exact computes_loadPcL
  | push c => exact computes_push c
  | pop c => exact computes_pop c
  | tas => exact computes_tas
  | cas => exact computes_cas
  | tstB => exact computes_tstB
  | logicB op => exact computes_logicB op

end MemInstr

end JCore
