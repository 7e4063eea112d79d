import Mathlib.Data.BitVec

/-!
# Predecoding

The functions of `decode_body`: the start address of an instruction's microcode
and the two checks for illegal instruction words. The addresses are minimised
sums of products, one for each bit; words that are no instruction have whatever
address the sums give.
-/

namespace JCore

section Predecode

variable (code : BitVec 16)

/-- An address from its bits, the highest first. -/
def addrOfBits (a7 a6 a5 a4 a3 a2 a1 a0 : Bool) : BitVec 8 :=
  BitVec.ofBool a7 ++ BitVec.ofBool a6 ++ BitVec.ofBool a5 ++ BitVec.ofBool a4 ++
    BitVec.ofBool a3 ++ BitVec.ofBool a2 ++ BitVec.ofBool a1 ++ BitVec.ofBool a0

/-- Codes `x"0"`. -/
def predecode0 : BitVec 8 :=
  let c := code.getLsbD
  addrOfBits
    ((c 3 && c 2) || (c 2 && !c 1) || (c 2 && !c 0))
    ((!c 7 && !c 6 && !c 4 && !c 3 && !c 2 && c 1 && c 0) || (!c 3 && c 2 && c 1 && c 0))
    ((!c 7 && !c 6 && !c 5 && !c 2 && c 1 && !c 0) ||
        (!c 7 && !c 6 && !c 4 && !c 2 && c 1 && !c 0) ||
        (!c 7 && !c 5 && c 4 && c 3 && !c 2 && c 1 && !c 0) || (!c 3 && c 2 && c 1 && c 0))
    ((!c 7 && !c 6 && c 5 && !c 4 && c 3 && !c 2 && !c 1 && c 0) ||
        (!c 7 && c 6 && !c 5 && c 4 && c 3 && !c 2 && c 1 && !c 0) ||
        (!c 7 && !c 6 && !c 4 && !c 3 && !c 2 && c 1 && c 0) || (c 2 && !c 1) || (c 2 && !c 0))
    ((!c 11 && !c 10 && !c 9 && !c 8 && !c 7 && !c 6 && !c 5 && c 3 && !c 2 && c 1 && c 0) ||
        (!c 11 && !c 10 && !c 9 && !c 8 && !c 7 && !c 6 && !c 5 && c 4 && c 3 && !c 2 && !c 1 &&
          !c 0) ||
        (!c 11 && !c 10 && !c 9 && !c 8 && !c 7 && !c 6 && c 4 && c 3 && !c 2 && c 1 && c 0) ||
        (!c 3 && c 2 && c 1 && c 0) || (c 3 && c 2 && !c 1 && c 0) || (c 3 && c 2 && c 1 && !c 0))
    (!((!c 11 && !c 10 && !c 9 && !c 8 && !c 7 && !c 6 && !c 4 && c 3 && !c 2 && !c 1 && !c 0) ||
        (!c 11 && !c 10 && !c 9 && !c 8 && !c 7 && !c 6 && !c 5 && c 3 && !c 2 && c 0) ||
        (!c 11 && !c 10 && !c 9 && !c 8 && !c 7 && !c 6 && !c 5 && c 3 && !c 2 && !c 1) ||
        (!c 7 && !c 6 && c 5 && !c 4 && c 3 && !c 2 && !c 1 && c 0) ||
        (!c 7 && !c 6 && !c 5 && !c 3 && !c 2 && c 1 && !c 0) || (c 3 && c 2 && !c 1 && c 0) ||
        (c 3 && c 2 && c 1 && !c 0)))
    (!((!c 11 && !c 10 && !c 9 && !c 8 && !c 7 && !c 6 && !c 4 && c 3 && !c 2 && !c 1 && !c 0) ||
        (!c 11 && !c 10 && !c 9 && !c 8 && !c 7 && !c 6 && !c 4 && c 3 && !c 2 && c 1 && c 0) ||
        (!c 7 && !c 6 && c 5 && !c 4 && !c 3 && !c 2 && c 1) ||
        (!c 7 && !c 6 && !c 5 && !c 4 && c 3 && !c 2 && c 1 && !c 0) || (!c 3 && c 2 && !c 1) ||
        (c 2 && !c 1 && c 0) || (c 3 && c 2 && c 1 && !c 0)))
    (!((!c 11 && !c 10 && !c 9 && !c 8 && !c 7 && !c 6 && !c 5 && c 3 && !c 2 && !c 1 && !c 0) ||
        (!c 11 && !c 10 && !c 9 && !c 8 && !c 7 && !c 6 && !c 5 && c 4 && c 3 && !c 2 && !c 1) ||
        (!c 11 && !c 10 && !c 9 && !c 8 && !c 7 && !c 6 && !c 4 && c 3 && !c 2 && c 1 && c 0) ||
        (!c 7 && !c 6 && !c 4 && !c 3 && !c 2 && c 1) ||
        (!c 7 && !c 6 && !c 5 && c 4 && c 3 && !c 2 && c 1 && !c 0) || (c 3 && c 2 && c 0) ||
        (!c 3 && c 2 && !c 0)))

/-- Codes `x"2"`. -/
def predecode2 : BitVec 8 :=
  let c := code.getLsbD
  addrOfBits
    (!(c 3 || (c 1 && c 0)))
    (!((!c 3 && !c 1) || (!c 3 && !c 0)))
    (!((!c 2 && !c 1 && c 0) || (!c 3 && !c 0) || (!c 3 && !c 1)))
    (!((c 3 && c 2 && !c 1 && !c 0) || (!c 3 && c 1 && c 0) || (!c 3 && !c 2)))
    ((c 3 && !c 2 && !c 0) || (c 3 && !c 1 && c 0))
    ((!c 3 && c 2 && c 1 && c 0) || (c 3 && !c 2 && c 1) || (c 3 && c 2 && !c 1 && c 0))
    ((c 3 && !c 2 && !c 1) || (!c 3 && c 1) || (!c 3 && c 2 && c 0))
    (!((!c 3 && !c 2 && c 1) || (c 3 && c 2 && c 1 && c 0) || (!c 2 && c 1 && !c 0) ||
        (!c 3 && !c 2 && !c 0) || (!c 3 && c 2 && !c 1 && c 0)))

/-- Codes `x"3"`. -/
def predecode3 : BitVec 8 :=
  let c := code.getLsbD
  addrOfBits
    false
    true
    (!((c 3 && c 2 && !c 0) || (c 3 && c 2 && c 1) || (!c 3 && !c 2 && !c 0) ||
        (!c 3 && !c 2 && c 1) || (!c 3 && c 1 && !c 0)))
    (!((!c 3 && c 2 && c 0) || (!c 3 && c 2 && !c 1) || (c 2 && !c 1 && c 0)))
    (!((!c 3 && c 2 && c 1 && c 0) || (!c 3 && c 2 && !c 1 && !c 0) || (c 3 && !c 2 && !c 0)))
    (!((c 3 && c 2) || (c 2 && c 0) || (c 3 && c 1 && c 0)))
    ((c 3 && c 2 && c 1 && c 0) || (!c 3 && !c 2 && c 1 && c 0) || (!c 3 && c 2 && !c 0) ||
        (c 3 && !c 2 && !c 0))
    ((c 1 && !c 0) || (!c 3 && c 2 && !c 1 && c 0))

/-- Codes `x"4"`. -/
def predecode4 : BitVec 8 :=
  let c := code.getLsbD
  addrOfBits
    ((c 3 && c 2 && c 1 && c 0))
    ((!c 7 && !c 6 && !c 5 && !c 4 && c 3 && !c 2 && c 1 && c 0) ||
        (!c 7 && !c 6 && !c 5 && !c 3 && c 2 && c 1) ||
        (!c 7 && !c 6 && !c 4 && !c 3 && c 2 && c 1) ||
        (c 7 && !c 6 && !c 5 && !c 4 && c 3 && !c 2 && !c 1) ||
        (!c 7 && c 6 && !c 5 && c 4 && c 3 && !c 2 && c 1 && !c 0) || (c 3 && c 2 && !c 1))
    ((!c 7 && !c 6 && c 5 && !c 4 && c 3 && !c 2) ||
        (!c 7 && !c 6 && !c 5 && c 4 && !c 2 && c 1) ||
        (c 7 && c 6 && !c 5 && !c 4 && c 3 && !c 2 && !c 1) ||
        (!c 7 && !c 6 && !c 5 && c 3 && c 1 && !c 0) ||
        (!c 7 && !c 6 && !c 4 && c 3 && c 1 && !c 0) || (c 3 && c 2 && !c 1) ||
        (!c 7 && !c 6 && !c 4 && !c 3 && !c 2 && c 1))
    (!((!c 7 && !c 6 && c 5 && !c 4 && c 3 && !c 2 && !c 1) ||
        (!c 7 && !c 6 && !c 5 && !c 2 && c 1 && c 0) ||
        (!c 7 && !c 6 && !c 4 && !c 3 && c 2 && c 1) ||
        (!c 7 && !c 6 && !c 5 && !c 3 && c 2 && c 1) || (c 3 && c 2 && c 1 && c 0)))
    (!((!c 7 && !c 6 && !c 4 && !c 3 && c 2 && !c 1) ||
        (!c 7 && !c 6 && c 5 && !c 4 && c 3 && !c 2 && !c 1) ||
        (!c 7 && !c 6 && c 5 && !c 4 && !c 3 && !c 2 && c 1) ||
        (c 7 && !c 5 && !c 4 && c 3 && !c 2 && !c 1) ||
        (!c 7 && !c 6 && !c 5 && !c 4 && c 3 && !c 2 && c 1 && c 0) ||
        (!c 7 && !c 6 && !c 5 && !c 3 && c 2 && c 0) ||
        (!c 7 && c 6 && !c 5 && c 4 && c 3 && !c 2 && c 1 && !c 0) ||
        (!c 7 && !c 6 && !c 5 && c 4 && !c 3 && !c 2 && !c 1) ||
        (!c 7 && !c 6 && !c 5 && !c 3 && !c 2 && c 1 && !c 0)))
    ((!c 7 && !c 6 && !c 4 && !c 3 && c 2 && !c 1) ||
        (!c 7 && !c 6 && !c 5 && c 3 && !c 2 && !c 1) ||
        (!c 7 && !c 6 && !c 5 && !c 3 && !c 2 && c 1 && c 0) ||
        (c 7 && c 6 && !c 5 && !c 4 && c 3 && !c 2 && !c 1) ||
        (!c 7 && !c 6 && !c 5 && c 3 && !c 2 && !c 0) ||
        (!c 7 && !c 6 && c 5 && !c 4 && c 3 && !c 2 && c 1) || (c 3 && c 2 && !c 1) ||
        (!c 7 && !c 6 && c 5 && !c 4 && !c 3 && c 1 && !c 0) ||
        (!c 7 && !c 6 && !c 5 && !c 3 && c 2 && c 1 && !c 0) ||
        (!c 7 && !c 6 && !c 5 && c 4 && !c 3 && c 1 && c 0))
    (!((!c 7 && !c 6 && !c 5 && c 4 && !c 3 && !c 1 && c 0) ||
        (!c 7 && !c 6 && !c 5 && c 3 && !c 2 && c 1) ||
        (!c 7 && !c 6 && c 5 && !c 4 && !c 3 && !c 2) ||
        (c 7 && !c 5 && !c 4 && c 3 && !c 2 && !c 1 && !c 0) ||
        (!c 7 && !c 6 && c 5 && !c 4 && !c 3 && c 1 && c 0) ||
        (!c 7 && !c 6 && !c 5 && !c 3 && c 2 && c 1 && !c 0) ||
        (!c 6 && !c 5 && !c 4 && c 3 && !c 2 && !c 1) || (c 3 && c 2 && c 1 && c 0) ||
        (!c 7 && !c 6 && !c 5 && !c 4 && !c 3 && c 2 && !c 1) ||
        (!c 7 && !c 6 && c 5 && !c 4 && !c 2 && !c 1) ||
        (!c 7 && !c 6 && !c 4 && !c 3 && !c 2 && c 1 && c 0) ||
        (!c 7 && !c 6 && !c 5 && !c 4 && c 3 && c 1 && !c 0)))
    ((!c 7 && !c 6 && !c 5 && !c 2 && !c 1 && c 0) ||
        (c 7 && c 6 && !c 5 && !c 4 && c 3 && !c 2 && !c 1 && !c 0) ||
        (!c 7 && !c 6 && !c 4 && c 3 && c 2 && c 1 && !c 0) ||
        (!c 7 && !c 6 && !c 5 && c 4 && !c 2 && c 1 && !c 0) ||
        (!c 7 && !c 6 && !c 4 && c 3 && !c 2 && c 0) ||
        (!c 7 && !c 6 && !c 4 && !c 3 && c 2 && c 0) ||
        (!c 7 && !c 6 && !c 5 && c 4 && !c 3 && c 1 && !c 0) ||
        (!c 6 && !c 5 && !c 4 && c 3 && !c 2 && !c 1 && c 0) || (c 3 && c 2 && c 0) ||
        (!c 7 && !c 6 && !c 4 && !c 3 && !c 1 && c 0))

/-- Codes `x"6"`. -/
def predecode6 : BitVec 8 :=
  let c := code.getLsbD
  addrOfBits
    (!(c 3 || (c 1 && c 0)))
    (!((!c 3 && !c 1) || (!c 3 && !c 0)))
    (!((!c 3 && !c 1) || (!c 3 && !c 0)))
    ((c 3 && !c 2) || (!c 3 && c 2 && c 1 && c 0))
    (!((c 3 && !c 2 && c 1) || (!c 3 && c 2 && c 1 && c 0) || (!c 3 && !c 2 && !c 1) ||
        (!c 3 && !c 2 && !c 0)))
    (!((c 3 && c 1) || (c 3 && !c 2) || (!c 3 && !c 1 && !c 0)))
    (!((!c 3 && c 2 && c 0) || (c 3 && !c 1 && !c 0) || (!c 3 && !c 1 && c 0) ||
        (!c 3 && !c 2 && c 1 && !c 0) || (c 3 && c 2 && !c 1)))
    (!((c 3 && c 2 && !c 0) || (!c 2 && c 0) || (!c 3 && c 1 && c 0)))

/-- Codes `x"8"`. -/
def predecode8 : BitVec 8 :=
  let c := code.getLsbD
  addrOfBits
    true
    ((c 11 && !c 10 && !c 9 && !c 8))
    ((c 11 && c 8))
    ((!c 11 && !c 9))
    (!((c 11 && !c 10 && c 9 && c 8) || (c 11 && !c 10 && !c 9 && !c 8)))
    (!((!c 11 && c 10 && !c 9) || (c 11 && c 10 && c 9 && c 8)))
    (!((!c 10 && !c 9)))
    (!((!c 11 && !c 9 && !c 8) || (c 11 && c 10 && c 9 && c 8) || (c 11 && !c 10 && !c 9)))

/-- Codes `x"c"`. -/
def predecodeC : BitVec 8 :=
  let c := code.getLsbD
  addrOfBits
    true
    ((c 11 && c 9 && !c 8) || (c 11 && !c 10) || (!c 10 && c 9 && c 8))
    (!((c 11 && c 9 && !c 8) || (c 11 && !c 10) || (!c 10 && c 9 && c 8)))
    ((c 11 && c 10 && c 8) || (c 11 && c 10 && !c 9))
    ((c 11 && c 10 && c 9 && c 8) || (c 11 && c 10 && !c 9 && !c 8) ||
        (!c 11 && !c 10 && c 9 && c 8))
    (!((!c 11 && !c 10) || (!c 11 && !c 9 && !c 8) || (c 11 && c 10 && c 9) ||
        (!c 10 && !c 9 && c 8)))
    (!((!c 11 && !c 10 && !c 9) || (!c 11 && !c 9 && c 8) || (c 10 && c 9 && !c 8) ||
        (c 11 && c 10 && !c 8) || (!c 10 && c 9 && c 8)))
    (!((!c 11 && c 10 && c 8) || (c 11 && c 10 && c 9) || (!c 10 && !c 9 && !c 8) ||
        (!c 11 && !c 10 && c 9)))

/-- Codes `x"f"`. -/
def predecodeF : BitVec 8 :=
  let c := code.getLsbD
  addrOfBits
    false
    (!((!c 7 && !c 6 && !c 5 && !c 4 && c 3 && c 2 && !c 1 && c 0)))
    (!((!c 7 && !c 6 && !c 5 && c 4 && c 3 && c 2 && !c 1 && c 0)))
    true
    (!((!c 7 && !c 6 && !c 5 && c 4 && c 3 && c 2 && !c 1 && c 0)))
    false
    (!((!c 7 && !c 6 && !c 5 && !c 4 && c 3 && c 2 && !c 1 && c 0)))
    (!((!c 7 && !c 6 && !c 5 && !c 4 && c 3 && c 2 && !c 1 && c 0)))

/-- The address of the first microcode line of an instruction. -/
def predecodeRomAddr : BitVec 8 :=
  match code.extractLsb 15 12 with
  | 0x0 => predecode0 code
  | 0x1 => 0x9e
  | 0x2 => predecode2 code
  | 0x3 => predecode3 code
  | 0x4 => predecode4 code
  | 0x5 => 0x9f
  | 0x6 => predecode6 code
  | 0x7 => 0xcf
  | 0x8 => predecode8 code
  | 0x9 => 0xb5
  | 0xa => 0xb1
  | 0xb => 0xb3
  | 0xc => predecodeC code
  | 0xd => 0xb6
  | 0xe => 0xd0
  | 0xf => predecodeF code
  | _ => 0xff

/-- The instructions that assign to PC. -/
def checkIllegalDelaySlot : Bool :=
  (code.extractLsb 15 12 == 0b0000 && code.extractLsb 3 2 == 0b00 && code.getLsbD 0) ||
    (code.extractLsb 15 14 == 0b10 && code.extractLsb 12 11 == 0b01 && code.getLsbD 8) ||
    code.extractLsb 15 13 == 0b101 ||
    (code.getLsbD 15 && code.extractLsb 13 8 == 0b000011) ||
    (!code.getLsbD 15 && code.extractLsb 13 12 == 0b00 && code.extractLsb 4 0 == 0b01011)

def checkIllegalInstruction : Bool := code.extractLsb 15 8 == 0xff

end Predecode

end JCore
