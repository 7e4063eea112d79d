import Mathlib.Algebra.GroupWithZero.Nat
import Mathlib.Data.List.Sort
import Mathlib.Data.Int.Notation
import Mathlib.Data.Nat.Size

/-!
# The microcode line of the generator

The functions of `rom.clj` that choose the fields of a microcode line, encode a slot
as a line, and generate the decoder of each field.

A slot assigns values to control keys. A key has a field of its own, or shares one with
the other keys of a combinable set. The field holds the number of the key's value, or of
the values of all keys of the set together, among those that occur in the slots.

## Main definitions

* `createEncoding`: the fields of the line and their codes
* `encodeString`, `encodeLine`: the line of a slot
* `fieldDecoder`: the value that the generated decoder assigns to a key
-/

namespace JCore

namespace Gen

/-! ### Numbers -/

/-- `log2`: the bits of `n - 1`, a `Long`. -/
def log2 (n : ℕ) : ℕ := if n = 0 then 64 else (n - 1).size

/-- `Long/toBinaryString`, the highest bit first. Zero has a digit, too. -/
def toBinaryString (n : ℕ) : List Bool := if n = 0 then [false] else n.bits.reverse

def toBinNum (n width : ℕ) : List Bool :=
  List.replicate (width - (toBinaryString n).length) false ++ toBinaryString n

/-! ### Slots and fields -/

/-- The control map of a slot. A value may be `nil`. -/
abbrev Slot (K V : Type*) := List (K × Option V)

section Fields

variable {K V : Type*} [DecidableEq K] [DecidableEq V]

/-- What the map has for a key, `nil` for one that it leaves out. -/
def Slot.get (slot : Slot K V) (k : K) : Option V := (slot.lookup k).join

/-- `combinable-signals`: the sets of keys that share a field, for a width of the ROM. -/
def combinableSignals : ℕ → Option (List (List String))
  | 64 => some [
      ["wrreg-w", "wrreg-z", "regnum-w", "regnum-z"],
      ["alumanip", "shiftfunc", "arith-func", "logic-func"],
      ["sr-sel", "t-sel", "arith-sr-func", "logic-sr-func"],
      ["regnum-x", "xbus-sel", "aluinx-sel"],
      ["regnum-y", "ybus-sel"],
      ["ma-issue", "ma-wr", "mem-size", "mem-addr-sel", "mem-wdata-sel"],
      ["ex-macsel1", "wb-macsel1", "ex-mulcom1", "wb-mulcom1", "ex-wrmacl", "wb-wrmacl"],
      ["ex-macsel2", "wb-macsel2", "ex-mulcom2", "wb-mulcom2", "ex-wrmach", "wb-wrmach"],
      ["if-issue", "dispatch"],
      ["wrpc-z", "wrpr-pc", "wrsr-w", "wrsr-z"]]
  | 72 => some [
      ["alumanip", "shiftfunc", "arith-func", "logic-func"],
      ["sr-sel", "t-sel", "arith-sr-func", "logic-sr-func"],
      ["regnum-y", "ybus-sel", "aluiny-sel"],
      ["ma-issue", "ma-wr", "mem-size"],
      ["ex-macsel1", "wb-macsel1", "ex-mulcom1", "wb-mulcom1", "ex-wrmacl", "wb-wrmacl"],
      ["ex-macsel2", "wb-macsel2", "ex-mulcom2", "wb-mulcom2", "ex-wrmach", "wb-wrmach"],
      ["wrpc-z", "wrpr-pc", "wrsr-w", "wrsr-z"]]
  -- the `case` has no other branch and throws
  | _ => none

variable (le : K → K → Bool) (combines : List (List K)) (nillable : K → Bool)
  (slots : List (Slot K V))

/-- The keys with a field of their own, sorted. -/
def singleKeys : List K :=
  ((slots.flatMap fun slot => slot.map Prod.fst).eraseDups.insertionSort
    fun a b => le a b = true).filter fun k => !combines.flatten.contains k

/-- The keys of each field. -/
def keySets : List (List K) := (singleKeys le combines slots).map (fun k => [k]) ++ combines

/-- `key-fn`: the values of a slot for the keys of a field. -/
def keyFn (keys : List K) (slot : Slot K V) : List (Option V) := keys.map slot.get

/-- The values to encode. Of a nillable key with its own field, `nil` is not one of them. -/
def possibleVals (keys : List K) : List (List (Option V)) :=
  let vals := (slots.map (keyFn keys)).eraseDups
  match keys with
  | [k] => if nillable k then vals.filter fun v => v != [none] else vals
  | _ => vals

/-- `multi-nil?` -/
def multiNil (v : List (Option V)) : Bool := v.all Option.isNone

/-- The codes of the values: their numbers, `nil` first if it is present. -/
def encodingOf (vals : List (List (Option V))) : List (List (Option V) × List Bool) :=
  (vals.filter multiNil ++ vals.filter fun v => !multiNil v).zipIdx.map fun (v, i) =>
    (v, toBinNum i (log2 vals.length))

/-- A field of the line, with the codes and the bit offsets. -/
structure Encoding (K V : Type*) where
  keys : List K
  encodeWidth : ℕ
  encoding : List (List (Option V) × List Bool)
  left : ℤ
  right : ℤ
  deriving DecidableEq, Repr

/-- The fields from bit `i` down. -/
def placeFields : ℤ → List (List K) → List (Encoding K V)
  | _, [] => []
  | i, keys :: rest =>
    let vals := possibleVals nillable slots keys
    let width := log2 vals.length
    { keys := keys, encodeWidth := width, encoding := encodingOf vals, left := i,
      right := i - width + 1 } :: placeFields (i - width) rest

/-- The width of the line. -/
def fullWidth : ℕ :=
  ((keySets le combines slots).map fun keys =>
    log2 (possibleVals nillable slots keys).length).sum

/-- `create-encoding` -/
def createEncoding : List (Encoding K V) :=
  placeFields nillable slots (fullWidth le combines nillable slots - 1)
    (keySets le combines slots)

/-! ### The encoder -/

/-- The code of a slot in a field, zeros for a value without a code. -/
def Encoding.code (enc : Encoding K V) (slot : Slot K V) : List Bool :=
  (enc.encoding.lookup (keyFn enc.keys slot)).getD (List.replicate enc.encodeWidth false)

/-- The string of a slot. -/
def encodeString (slot : Slot K V) : List Bool :=
  (createEncoding le combines nillable slots).flatMap fun enc => enc.code slot

/-- The literal of a slot. Where the width allows hexadecimal digits the string is cut
into groups of four, of which the last is left out if it is not complete. -/
def encodeLine (slot : Slot K V) : List Bool :=
  let s := encodeString le combines nillable slots slot
  if fullWidth le combines nillable slots % 4 = 0 then s.take (s.length / 4 * 4) else s

end Fields

/-! ### The decoder -/

/-- The signals of the control keys: which are of type `std_logic`, their zero values,
and the VHDL values of the values in a slot. In Clojure `false` counts as no value. -/
structure Controls (K V E : Type*) where
  stdLogic : K → Bool
  zeroVal : K → E
  value : K → V → E
  bit : Bool → E
  falsy : V → Bool
  zeroVal_of_stdLogic : ∀ k, stdLogic k = true → zeroVal k = bit false
  value_of_falsy : ∀ k v, falsy v = true → value k v = zeroVal k

section Decoder

variable {K V E : Type*} [DecidableEq K] [DecidableEq V] [DecidableEq E] (c : Controls K V E)

/-- A selected signal assignment. -/
def selectAssign (sel : List Bool) (branches : List (E × List (List Bool))) (others : E) : E :=
  ((branches.find? fun branch => branch.2.contains sel).map Prod.fst).getD others

/-- `val-map`: the values of the key at place `i` of a field, each with the codes that
stand for it. Empty values are left out. -/
def valMap (encoding : List (List (Option V) × List Bool)) (i : ℕ) : List (V × List (List Bool)) :=
  let vals := (encoding.filterMap fun (ks, _) => (ks[i]?.join).filter fun v => !c.falsy v).eraseDups
  vals.map fun v =>
    (v, (encoding.filter fun (ks, _) => ks[i]?.join == some v).map Prod.snd)

/-- The branches of the assignment. Those of the zero value are left to `others`. -/
def branches (enc : Encoding K V) (i : ℕ) (k : K) : List (E × List (List Bool)) :=
  ((valMap c enc.encoding i).map fun (v, bits) => (c.value k v, bits)).filter fun branch =>
    branch.1 != c.zeroVal k

/-- Bits `left` down to `right` of the line, whose highest bit is `width - 1`. -/
def slice (width : ℕ) (line : List Bool) (left right : ℤ) : List Bool :=
  (line.drop (width - 1 - left).toNat).take (left - right + 1).toNat

/-- Bit `i` of the line. -/
def element (width : ℕ) (line : List Bool) (i : ℤ) : Bool :=
  line.getD (width - 1 - i).toNat false

/-- The value that the decoder of a field assigns to its key at place `i`. The test for
a single bit computes two less the width. -/
def fieldDecoder (width : ℕ) (enc : Encoding K V) (i : ℕ) (k : K) (line : List Bool) : E :=
  if enc.right - enc.left + 1 = 1 ∧ c.stdLogic k = true then c.bit (element width line enc.left)
  else selectAssign (slice width line enc.left enc.right) (branches c enc i k) (c.zeroVal k)

/-- The value that a slot gives to a key. -/
def Controls.given (slot : Slot K V) (k : K) : E :=
  match slot.get k with
  | some v => c.value k v
  | none => c.zeroVal k

end Decoder

end Gen

end JCore
