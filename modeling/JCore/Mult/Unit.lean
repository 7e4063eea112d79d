import Mathlib.Data.BitVec

/-!
# The multiply-accumulate unit

`core/mult.vhm` with the types and the microcode of `core/mult_pkg.vhd`. A
`std_logic` is a `Bool` and a `std_logic_vector` a `BitVec`. The process is
cut at its own comments: every intermediate variable is a function of the
register record, and `Mult.step` assembles the next record from them.

The unit has a clock of its own: its states advance on every clock, and only
the loads from the CPU wait for `slot`.

## Main definitions

* `MultReg`, `multReset`: the register record and its reset value
* `multCode`: the microcode, one line per state
* `Mult.c`, `Mult.acc`, `Mult.saturate`: addend, accumulator and saturation
* `Mult.step`, `Mult.run`: one clock, and a list of clocks
-/

namespace JCore

/-- States of the unit; the entry states double as the commands of the CPU. -/
inductive MultState where
  | nop | dmulsl | dmulsl1 | dmulsl2 | dmulul | dmulul1 | dmulul2 | macl | macl1 | macl2
  | macw | macw1 | macws | macws1 | mull | mull1 | mull2 | mulsw | mulsw1 | muluw | muluw1
  deriving DecidableEq, Repr

/-- What happens to the accumulated value before it is written back. -/
inductive MultResultOp where
  | identity | saturate32 | saturate64
  deriving DecidableEq, Repr

/-- Which register feeds the first operand. -/
inductive MultSela where
  | m1 | mb
  deriving DecidableEq, Repr

/-- Operand width. -/
inductive MultSize where
  | b16 | b32
  deriving DecidableEq, Repr

def p48max : BitVec 64 := 0x00007fffffffffff#64
def n48max : BitVec 64 := 0xffff800000000000#64
def p32max : BitVec 64 := 0x000000007fffffff#64
def n32max : BitVec 64 := 0xffffffff80000000#64

/-- A line of the unit's microcode. -/
structure MultCodeline where
  state : MultState
  busy : Bool
  sela : MultSela
  shift : Bool
  sign : Bool
  size : MultSize
  machEn : Bool
  maclEn : Bool
  useH : Bool
  deriving DecidableEq, Repr

/-- `MULT_CODE`, with the columns of the source's table. -/
def multCode : MultState → MultCodeline
  | .nop     => ⟨.nop,     false, .m1, false, false, .b16, false, false, true⟩
  | .dmulsl  => ⟨.dmulsl1, true,  .m1, false, true,  .b32, false, false, true⟩
  | .dmulsl1 => ⟨.dmulsl2, true,  .m1, true,  true,  .b32, true,  true,  true⟩
  | .dmulsl2 => ⟨.nop,     false, .m1, true,  true,  .b32, true,  true,  true⟩
  | .dmulul  => ⟨.dmulul1, true,  .m1, false, false, .b32, false, false, true⟩
  | .dmulul1 => ⟨.dmulul2, true,  .m1, true,  false, .b32, true,  true,  true⟩
  | .dmulul2 => ⟨.nop,     false, .m1, true,  false, .b32, true,  true,  true⟩
  | .macl    => ⟨.macl1,   true,  .mb, false, true,  .b32, false, false, true⟩
  | .macl1   => ⟨.macl2,   true,  .mb, true,  true,  .b32, true,  true,  true⟩
  | .macl2   => ⟨.nop,     false, .mb, true,  true,  .b32, true,  true,  true⟩
  | .macw    => ⟨.macw1,   true,  .m1, false, true,  .b16, false, false, true⟩
  | .macw1   => ⟨.nop,     false, .m1, false, true,  .b16, true,  true,  true⟩
  | .macws   => ⟨.macws1,  true,  .m1, false, true,  .b16, false, false, false⟩
  | .macws1  => ⟨.nop,     false, .m1, false, true,  .b16, false, true,  false⟩
  | .mull    => ⟨.mull1,   true,  .m1, false, true,  .b32, false, false, false⟩
  | .mull1   => ⟨.mull2,   true,  .m1, true,  true,  .b32, false, true,  false⟩
  | .mull2   => ⟨.nop,     false, .m1, true,  true,  .b32, false, true,  false⟩
  | .mulsw   => ⟨.mulsw1,  true,  .m1, false, true,  .b16, false, false, false⟩
  | .mulsw1  => ⟨.nop,     false, .m1, false, true,  .b16, false, true,  false⟩
  | .muluw   => ⟨.muluw1,  true,  .m1, false, false, .b16, false, false, false⟩
  | .muluw1  => ⟨.nop,     false, .m1, false, false, .b16, false, true,  false⟩

/-- The inputs of the unit. -/
structure MultI where
  wrM1 : Bool
  command : MultState
  s : Bool
  wrMach : Bool
  wrMacl : Bool
  in1 : BitVec 32
  in2 : BitVec 32
  deriving DecidableEq, Repr

/-- The register record of the unit. -/
@[ext] structure MultReg where
  state : MultState
  resultOp : MultResultOp
  m1 : BitVec 32
  m2 : BitVec 32
  mb : BitVec 32
  p23 : BitVec 32
  mach : BitVec 32
  macl : BitVec 32
  shift : Bool
  abh : BitVec 47
  deriving DecidableEq, Repr

def multReset : MultReg :=
  { state := .nop, resultOp := .identity, m1 := 0, m2 := 0, mb := 0, p23 := 0, mach := 0,
    macl := 0, shift := false, abh := 0 }

namespace Mult

/-- The microcode line of the current state. -/
def code (this : MultReg) : MultCodeline := multCode this.state

/-- Operand A. -/
def aa (this : MultReg) : BitVec 32 :=
  if (code this).sela = .mb then this.mb else this.m1

/-- The lower 31 bits of operand A, 15 of them for a 16-bit operation. -/
def ah (this : MultReg) : BitVec 31 :=
  if (code this).size = .b16 then 0#16 ++ (aa this).extractLsb' 0 15
  else (aa this).extractLsb' 0 31

/-- The half of operand B that enters the multiplier. -/
def bh (this : MultReg) : BitVec 16 :=
  if (code this).size = .b16 then 0#1 ++ this.m2.extractLsb' 0 15
  else if (code this).shift then 0#1 ++ this.m2.extractLsb' 16 15
  else this.m2.extractLsb' 0 16

/-- The registered product with the product of the sign bits beside it. -/
def abh2 (this : MultReg) : BitVec 33 :=
  if (code this).size = .b16 then
    0#1 ++ 0#16 ++ BitVec.ofBool ((aa this).getLsbD 15 && this.m2.getLsbD 15) ++
      this.abh.extractLsb' 15 15
  else if this.shift = false then 0#1 ++ this.abh.extractLsb' 15 32
  else
    0#1 ++ BitVec.ofBool ((aa this).getLsbD 31 && this.m2.getLsbD 31) ++
      this.abh.extractLsb' 15 31

/-- Operand B when operand A is negative. -/
def p2 (this : MultReg) : BitVec 32 :=
  if (aa this).getLsbD 15 ∧ (code this).size = .b16 then
    0#16 ++ 0#1 ++ this.m2.extractLsb' 0 15
  else if (aa this).getLsbD 31 ∧ (code this).shift then 0#1 ++ this.m2.extractLsb' 0 31
  else 0

/-- Operand A when operand B is negative. -/
def p3 (this : MultReg) : BitVec 32 :=
  if this.m2.getLsbD 15 ∧ (code this).size = .b16 then
    0#16 ++ 0#1 ++ (aa this).extractLsb' 0 15
  else if this.m2.getLsbD 31 ∧ (code this).shift then 0#1 ++ (aa this).extractLsb' 0 31
  else 0

def sgn (this : MultReg) : BitVec 32 :=
  if (code this).sign then BitVec.allOnes 32 else 0

/-- The partial product: the cross terms in `p23` are added or subtracted. -/
def pm (this : MultReg) : BitVec 48 :=
  (abh2 this + (BitVec.ofBool ((sgn this).getLsbD 0) ++ (this.p23 ^^^ sgn this)) +
      BitVec.ofNat 33 (code this).sign.toNat) ++
    this.abh.extractLsb' 0 15

/-- The addend of the accumulator. -/
def c (this : MultReg) : BitVec 64 :=
  if this.shift = false then
    if (pm this).getLsbD 47 ∧ (code this).size = .b16 then 0xffff#16 ++ pm this
    else 0#16 ++ pm this
  else pm this ++ 0#16

/-- `to_slv`: a vector of copies of one bit. -/
def toSlv (b : Bool) (s : Nat) : BitVec s := if b then BitVec.allOnes s else 0

def acc (this : MultReg) : BitVec 64 :=
  c this + ((this.mach &&& toSlv (code this).useH 32) ++ this.macl)

/-- The three-bit region code of the 48-bit saturation. -/
def region64 (this : MultReg) : BitVec 3 :=
  BitVec.ofBool (this.mach.getLsbD 31) ++ BitVec.ofBool ((acc this).getLsbD 63) ++
    BitVec.ofBool
      (((acc this).getLsbD 63 == false && (acc this).extractLsb' 47 16 != 0x0000#16) ||
        ((acc this).getLsbD 63 && (acc this).extractLsb' 47 16 != 0xffff#16))

/-- The region code of the 32-bit saturation. -/
def region32 (this : MultReg) : BitVec 3 :=
  BitVec.ofBool (this.macl.getLsbD 31) ++ BitVec.ofBool ((acc this).getLsbD 31) ++ 0#1

/-- The saturation flag and the value that is written back. -/
def saturate (this : MultReg) : Bool × BitVec 64 :=
  match this.resultOp with
  | .identity => (false, acc this)
  | .saturate64 =>
    let region := region64 this
    if (c this).getLsbD 63 = false then
      if region = 0b001#3 ∨ region = 0b010#3 ∨ region = 0b011#3 ∨ region = 0b101#3 then
        (true, p48max)
      else if region = 0b111#3 then (true, n48max)
      else (false, acc this)
    else
      if region = 0b001#3 then (true, p48max)
      else if region = 0b011#3 ∨ region = 0b100#3 ∨ region = 0b101#3 ∨ region = 0b111#3 then
        (true, n48max)
      else (false, acc this)
  | .saturate32 =>
    let region := region32 this
    if (c this).getLsbD 31 = false then
      if region = 0b010#3 then (true, p32max) else (false, acc this)
    else
      if region = 0b100#3 then (true, n32max) else (false, acc this)

/-- `unsigned(ah) * unsigned(bh)`, in the 47 bits of the product. -/
def product (this : MultReg) : BitVec 47 :=
  (ah this).setWidth 47 * (bh this).setWidth 47

/-- The next value of `mach`. -/
def nextMach (this : MultReg) (slot : Bool) (a : MultI) : BitVec 32 :=
  if slot ∧ a.wrMach then a.in1
  else if slot ∧ (a.command = .dmulsl ∨ a.command = .dmulul) then 0
  else if this.state = .macws1 ∧ (saturate this).1 then this.mach ||| 1
  else if (code this).machEn then (saturate this).2.extractLsb' 32 32
  else this.mach

/-- The next value of `macl`. -/
def nextMacl (this : MultReg) (slot : Bool) (a : MultI) : BitVec 32 :=
  if slot ∧ a.wrMacl then a.in2
  else if slot ∧ a.command ≠ .nop ∧ a.command ≠ .macl ∧ a.command ≠ .macw then 0
  else if (code this).maclEn then (saturate this).2.extractLsb' 0 32
  else this.macl

/-- The next state: the microcode's own, or the command when the unit is free. -/
def nextState (this : MultReg) (slot : Bool) (a : MultI) : MultState :=
  if (code this).busy = false ∧ slot then
    if a.command = .macw ∧ a.s then .macws else a.command
  else (code this).state

def nextResultOp (this : MultReg) (slot : Bool) (a : MultI) : MultResultOp :=
  if (code this).busy = false ∧ slot then
    if a.command = .macl ∧ a.s then .saturate64
    else if a.command = .macw ∧ a.s then .saturate32
    else .identity
  else this.resultOp

/-- One clock of the unit. -/
def step (this : MultReg) (slot : Bool) (a : MultI) : MultReg where
  state := nextState this slot a
  resultOp := nextResultOp this slot a
  m1 := if slot ∧ a.wrM1 then a.in1 else this.m1
  m2 := if slot ∧ a.command ≠ .nop then a.in2 else this.m2
  mb := if slot ∧ (a.command = .macl ∨ a.command = .macw) then this.m1 else this.mb
  p23 := p2 this + p3 this
  mach := nextMach this slot a
  macl := nextMacl this slot a
  shift := (code this).shift
  abh := product this

/-- `MACH:MACL`. -/
def mac (this : MultReg) : BitVec 64 := this.mach ++ this.macl

/-- A run over a list of clocks, each with its slot bit and its inputs. -/
def run (this : MultReg) (clocks : List (Bool × MultI)) : MultReg :=
  clocks.foldl (fun r i => step r i.1 i.2) this

@[simp] theorem run_nil (this : MultReg) : run this [] = this := rfl

@[simp] theorem run_cons (this : MultReg) (i : Bool × MultI) (clocks : List (Bool × MultI)) :
    run this (i :: clocks) = run (step this i.1 i.2) clocks := rfl

@[simp] theorem run_append (this : MultReg) (xs ys : List (Bool × MultI)) :
    run this (xs ++ ys) = run (run this xs) ys :=
  List.foldl_append

end Mult

end JCore
