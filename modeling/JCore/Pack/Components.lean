import Mathlib.Data.BitVec

/-!
# The functional units

The combinational units of `components_pkg`: adder, logic unit, barrel shifter
and byte manipulation, with the flags they leave in the status register. As in
the source the units are generic in the width of their operands.

## Main definitions

* `arithUnit`, `arithUpdateSr`: sum or difference with carry, and its flags
* `logicUnit`, `logicUpdateSr`: bitwise operations, and their flags
* `bshifter`: shifts and rotations by a signed count
* `manip`: extensions, swaps and extraction of bytes
-/

namespace JCore

inductive ArithFunc where
  | add | sub
  deriving DecidableEq, Repr

inductive ArithSrFunc where
  | zero | overunderflow | ugrterEq | sgrterEq | ugrter | sgrter | div0s | div1
  deriving DecidableEq, Repr

inductive LogicFunc where
  | logicNot | logicAnd | logicOr | logicXor
  deriving DecidableEq, Repr

inductive LogicSrFunc where
  | zero | byteEq
  deriving DecidableEq, Repr

inductive Shiftfunc where
  | logic | arith | rotate | rotc
  deriving DecidableEq, Repr

inductive Alumanip where
  | swapByte | swapWord | extendUbyte | extendUword | extendSbyte | extendSword | extract
  | setBit7
  deriving DecidableEq, Repr

/-- The status register. -/
@[ext] structure Sr where
  t : Bool
  s : Bool
  q : Bool
  m : Bool
  intMask : BitVec 4
  deriving DecidableEq, Repr

inductive MemSize where
  | byte | word | long
  deriving DecidableEq, Repr

section Units

variable {n : ℕ}

def orReduce (a : BitVec n) : Bool := a != 0#n

/-- The disjunctions of the whole bytes of a vector, the lowest byte first. -/
def orReduceBytes (a : BitVec n) (byteWidth : ℕ) : List Bool :=
  (List.range (n / byteWidth)).map fun i => orReduce (a.extractLsb' (i * byteWidth) byteWidth)

def isZero (a : BitVec n) : Bool := !orReduce a

theorem isZero_xor (a b : BitVec n) : isZero (a ^^^ b) = (a == b) := by
  rw [isZero, orReduce, bne, Bool.not_not, Bool.eq_iff_iff, beq_iff_eq, beq_iff_eq,
    BitVec.xor_eq_zero_iff]

/-- Every bit of `a`, complemented if `b` is set. -/
def xorAll (a : BitVec n) (b : Bool) : BitVec n :=
  a ^^^ (if b then BitVec.allOnes n else 0#n)

/-- Sum or difference with a carry in. The bit above the operands is the carry
of a sum and the borrow of a difference. -/
def arithUnit (a b : BitVec n) (func : ArithFunc) (ci : Bool) : BitVec (n + 1) :=
  let isSub := func == .sub
  let b2 := xorAll b isSub
  -- A - B - ci = A + not B + (1 xor ci)
  let carryIn := BitVec.ofNat (n + 1) (isSub ^^ ci).toNat
  let sum := a.setWidth (n + 1) + b2.setWidth (n + 1) + carryIn
  sum ^^^ (BitVec.ofNat (n + 1) isSub.toNat <<< n)

def logicUnit (a b : BitVec n) (func : LogicFunc) : BitVec n :=
  match func with
  | .logicNot => xorAll b true
  | .logicAnd => a &&& b
  | .logicOr => a ||| b
  | .logicXor => a ^^^ b

/-- The flags of an addition or subtraction with result `value`. -/
def arithUpdateSr (srIn : Sr) (aMsb bMsb : Bool) (value : BitVec n) (coOrBorrow : Bool)
    (arithfunc : ArithFunc) (func : ArithSrFunc) : Sr :=
  let vMsb := value.getLsbD (n - 1)
  let isSub := arithfunc == .sub
  let valueZero := isZero value
  -- equal signs: no borrow means greater or equal, signed or unsigned
  let commonGrEq := (!aMsb && !bMsb && !vMsb) || (aMsb && bMsb && !vMsb)
  let signGrEq := commonGrEq || (!aMsb && bMsb)
  let unsignGrEq := commonGrEq || (aMsb && !bMsb)
  match func with
  | .zero => { srIn with t := isZero value }
  | .overunderflow =>
    { srIn with
      t := (!aMsb && !(bMsb ^^ isSub) && vMsb) || (aMsb && (bMsb ^^ isSub) && !vMsb) }
  | .ugrter => { srIn with t := unsignGrEq && !valueZero }
  | .ugrterEq => { srIn with t := unsignGrEq }
  | .sgrter => { srIn with t := signGrEq && !valueZero }
  | .sgrterEq => { srIn with t := signGrEq }
  | .div0s => { srIn with q := aMsb, m := bMsb, t := aMsb ^^ bMsb }
  | .div1 =>
    let q := aMsb ^^ srIn.m ^^ coOrBorrow
    { srIn with q := q, t := !(q ^^ srIn.m) }

/-- The flags of a logical operation with result `value`. -/
def logicUpdateSr (srIn : Sr) (value : BitVec n) (func : LogicSrFunc) (byteWidth : ℕ) : Sr :=
  match func with
  | .zero => { srIn with t := isZero value }
  -- the value is the exclusive or of the operands: some byte of it is zero
  | .byteEq => { srIn with t := (orReduceBytes value byteWidth).any (!·) }

end Units

section Shifter

/-- The vector with bit `i` equal to `f i`. -/
def bitsOf (f : ℕ → Bool) : (n : ℕ) → BitVec n
  | 0 => BitVec.nil
  | n + 1 => BitVec.cons (f n) (bitsOf f n)

variable {n : ℕ}

/-- `left_rotate`: one conditional rotation for each bit of the count, from the
highest down. -/
def leftRotate (a : BitVec (2 ^ n)) (b : BitVec n) : BitVec (2 ^ n) :=
  ((List.range n).reverse.foldl
    (fun (yr, offset) i => (if b.getLsbD i then yr.rotateLeft offset else yr, offset / 2))
    (a, 2 ^ n / 2)).1

/-- As many ones as the count says, from bit 0 up. -/
def calfFcn (b : BitVec n) : BitVec (2 ^ n) := bitsOf (fun i => decide (i < b.toNat)) (2 ^ n)

/-- The places that take a bit of the rotated operand. -/
def calpFcn (f : BitVec (2 ^ n)) (rotate left : Bool) : BitVec (2 ^ n) :=
  bitsOf (fun i => (f.getLsbD i ^^ left) || rotate) (2 ^ n)

/-- The rotated operand where `p` is set, elsewhere the bit shifted in. -/
def calyFcn (y p : BitVec (2 ^ n)) (ops : Shiftfunc) (left c a : Bool) : BitVec (2 ^ n) :=
  let s := if ops = .arith ∧ left = false then a else false
  bitsOf (fun i =>
    if p.getLsbD i then y.getLsbD i
    -- a rotation through the carry by one place
    else if i = 2 ^ n - 1 then if left = false ∧ ops = .rotc then c else s
    else if i = 0 then if left = true ∧ ops = .rotc then c else s
    else s) (2 ^ n)

/-- Barrel shifter: `b` is a sign bit, set for a shift to the right, above the
magnitude. -/
def bshifter (a : BitVec (2 ^ n)) (b : BitVec (n + 1)) (c : Bool) (ops : Shiftfunc) :
    BitVec (2 ^ n) :=
  let bMag := b.extractLsb' 0 n
  let left := !b.getLsbD n
  let rot := ops == .rotate
  let p := calpFcn (calfFcn bMag) rot left
  calyFcn (leftRotate a bMag) p ops left c (a.getLsbD (2 ^ n - 1))

end Shifter

/-- Byte `i` of a long word. -/
def byteAt (x : BitVec 32) (i : ℕ) : BitVec 8 := x.extractLsb' (8 * i) 8

/-- Extensions, swaps and extraction, each byte of the result on its own. -/
def manip (x y : BitVec 32) (func : Alumanip) : BitVec 32 :=
  let signBit := if func = .extendSbyte then y.getLsbD 7 else y.getLsbD 15
  let signByte : BitVec 8 := if signBit then BitVec.allOnes 8 else 0
  let b3 := match func with
    | .swapByte | .setBit7 => byteAt y 3
    | .extendUbyte | .extendUword => 0
    | .extendSbyte | .extendSword => signByte
    | .swapWord | .extract => byteAt y 1
  let b2 := match func with
    | .swapByte | .setBit7 => byteAt y 2
    | .extendUbyte | .extendUword => 0
    | .extendSbyte | .extendSword => signByte
    | .swapWord | .extract => byteAt y 0
  let b1 := match func with
    | .swapByte => byteAt y 0
    | .swapWord => byteAt y 3
    | .extendUbyte => 0
    | .extendUword | .extendSword | .setBit7 => byteAt y 1
    | .extendSbyte => signByte
    | .extract => byteAt x 3
  let b0 := match func with
    | .swapByte => byteAt y 1
    | .swapWord => byteAt y 2
    | .extendUbyte | .extendUword | .extendSbyte | .extendSword => byteAt y 0
    | .setBit7 => 1#1 ++ y.extractLsb' 0 7
    | .extract => byteAt x 2
  b3 ++ b2 ++ b1 ++ b0

end JCore
