import Mathlib.Data.List.Sort
import JCore.Gen.Interface
import JCore.Gen.Logic
import JCore.Gen.Rom

/-!
# The simple and the direct decoder table

The two tables that `genvhdl.clj` makes without a ROM. The simple table is a process with
a branch for each instruction and in it a case for each slot. The direct table has one
assignment for each control signal. Its conditions are those of all the slots that give
the signal the same value.

## Main definitions

* `systemOps`: the system operations by their literals
* `simpleTable`: the value that the simple table assigns to a signal
* `directTable`: the value that the direct table assigns to a signal
* `macBusySimple`, `macBusyDirect`: the outputs that both make of `mac-busy`
-/

namespace JCore

namespace Gen

/-- An instruction of the table, with the control map of each of its slots. -/
structure Op where
  name : List Char
  plane : Char
  op : List Char
  slots : List (List (String × Val))

/-- The `:logic-map` of an instruction. -/
def Op.logicMap (o : Op) : LogicMap := opToLogicMap o.plane o.op

/-! ### The system operations -/

/-- The literal of a system operation: the words of its name in capitals. -/
def systemLiteral (name : List Char) : List Char :=
  let words := ((name.map Char.toLower).splitOn ' ').filter fun word => !word.isEmpty
  let words := words.map fun word =>
    if word = "instruction".toList then "instr".toList else word
  ['_'].intercalate (words.map fun word => word.map Char.toUpper)

/-- The keys of `system-ops`. -/
def systemOps (ops : List Op) : List (List Char) :=
  (ops.filter fun o => o.plane == '1').map fun o => systemLiteral o.name

/-- The operations that the decoder's package names: those for the events, of which the one for
the reset is where a CPU begins. The generator throws if one is missing. -/
def namedSystemOps : List (List Char) :=
  ["INTERRUPT".toList, "ERROR".toList, "BREAK".toList, "RESET_CPU".toList]

/-- The value of an expression, for a value of the signal `t_bcc`. -/
def Expr.eval (tBcc : Bool) : Expr → Expr
  | .tBcc => .bit tBcc
  | .notTBcc => .bit !tBcc
  | e => e

/-! ### The simple table -/

/-- The case of `gen-op-case`, over the low 4 bits of the address. -/
def Op.slotAt (o : Op) (op : Operation) : List (String × Val) :=
  (o.slots[op.addr.toNat % 16]?).getD []

/-- The value of a control signal after the process of the simple table: zero first, and
then what the slot assigns. There is none if the generator finds no expression for it. -/
def simpleTable (ops : List Op) (k : String) (op : Operation) (tBcc : Bool) : Option Expr :=
  match ops.find? fun o => stdMatch o.logicMap op with
  | some o =>
    match (o.slotAt op).lookup k with
    | some v => (assignVal k v).map (Expr.eval tBcc)
    | none => some (zeroVal k)
  | none => some (zeroVal k)

/-! ### The direct table -/

/-- A slot with its condition. -/
structure Mcode where
  logicMap : LogicMap
  controls : List (String × Val)

/-- `default-controls`: nillable signals have none. -/
def defaultControls : List (String × Val) :=
  ((controls.map Prod.fst).filter fun k => !nillableOutputs.contains k).map fun k =>
    (k, defaultControl k)

/-- The condition for the step of a slot, with leading zeros. -/
def seqLogicMap (seqBits i : ℕ) : LogicMap :=
  LogicMap.merge (strToLogicMap .s (List.replicate seqBits '0'))
    (strToLogicMap .s ((toBinaryString i).map fun b => if b then '1' else '0'))

/-- The condition of the slot `i`. An instruction with a single slot leaves out the step. -/
def Op.slotCond (o : Op) (i : ℕ) : LogicMap :=
  let seqBits := log2 o.slots.length
  if 0 < seqBits then o.logicMap.merge (seqLogicMap seqBits i) else o.logicMap

def Op.mcodes (o : Op) : List Mcode :=
  o.slots.mapIdx fun i mc => { logicMap := o.slotCond i, controls := mc ++ defaultControls }

def mcodes (ops : List Op) : List Mcode := ops.flatMap Op.mcodes

/-- The values of a control signal, each with the condition of a slot. -/
def controlEntries (ops : List Op) (k : String) : List (Val × LogicMap) :=
  (mcodes ops).filterMap fun m => (m.controls.lookup k).map fun v => (v, m.logicMap)

/-- The values that a control signal takes in the table. -/
def controlValues (ops : List Op) (k : String) : List Val :=
  ((controlEntries ops k).map Prod.fst).eraseDups

section Direct

/-! The minimiser for logic is not part of the generator. Neither is the order in which a
map lists its entries. -/

variable (reduce : Minimiser)
  (entries : List (Val × List LogicMap) → List (Val × List LogicMap))

/-- The conditions of the slots with the same value, reduced. -/
def implicants (ops : List Op) (k : String) : List (Val × List LogicMap) :=
  (controlValues ops k).map fun v =>
    (v, reduceImplicants reduce
      (((controlEntries ops k).filter fun e => e.1 == v).map Prod.snd))

/-- The literals of the conditions together. -/
def cost (values : Val × List LogicMap) : ℕ := (values.2.map List.length).sum

/-- The values with their conditions, the longest conditions last. -/
def sortedValues (ops : List Op) (k : String) : List (Val × List LogicMap) :=
  (entries (implicants reduce ops k)).insertionSort fun a b => cost a ≤ cost b

/-- The disjunction of the conditions of a value. -/
def valueCond (op : Operation) (conds : List LogicMap) : Option Bool :=
  vOr (conds.map fun m => logicMapToBit m op)

/-- The vector that has only the bit `i` of `n` set. -/
def oneHot (n i : ℕ) : List Bool :=
  List.replicate i false ++ true :: List.replicate (n - i - 1) false

/-- The assignments for more than two values: of the vector of the conditions, and of the
signal that it selects. -/
def condSelect (values : List (Option Expr × List LogicMap)) (op : Operation) : Option Expr :=
  (values.dropLast.mapM fun value => valueCond op value.2).bind fun conditions =>
    selectAssign conditions
      (values.dropLast.zipIdx.map fun p => (p.1.1, [oneHot (values.length - 1) p.2]))
      (values.getLast?.bind Prod.fst)

/-- The assignment to a control signal. The last value needs no condition. -/
def sigAssign (k : String) (values : List (Option Expr × List LogicMap)) (op : Operation) :
    Option Expr :=
  if controlType k = some .stdLogic ∧ values.length = 2 then
    -- a single std_logic is assigned directly
    values.head?.bind fun value => (valueCond op value.2).map fun exp =>
      .bit (if value.1 = some (.bit true) then exp else !exp)
  else
    match values with
    | [] => none
    | [(val, _)] => val
    | [(v₁, conds), (v₂, _)] => (valueCond op conds).bind fun c => if c then v₁ else v₂
    | values => condSelect values op

/-- The value of a control signal in the direct table. -/
def directTable (ops : List Op) (k : String) (op : Operation) (tBcc : Bool) : Option Expr :=
  (sigAssign k ((sortedValues reduce entries ops k).map fun value =>
    (assignVal k value.1, value.2)) op).map (Expr.eval tBcc)

end Direct

/-! ### The multiplier -/

/-- The bit of a selected assignment to a `mac_busy` output. -/
def selectMacBusy (branches : List (Bool × String)) (others : Bool) (busy : Expr) : Bool :=
  ((branches.find? fun branch => busy = .literal branch.2).map Prod.fst).getD others

/-- The outputs for the execute and the write-back stage in the simple table. -/
def macBusySimple (nextIdStall : Bool) (busy : Expr) : Bool × Bool :=
  (selectMacBusy [(false, "NOT_BUSY"), (!nextIdStall, "EX_NOT_STALL"), (false, "WB_NOT_STALL"),
      (true, "EX_BUSY"), (false, "WB_BUSY")] false busy,
    selectMacBusy [(false, "NOT_BUSY"), (false, "EX_NOT_STALL"), (!nextIdStall, "WB_NOT_STALL"),
      (false, "EX_BUSY"), (true, "WB_BUSY")] false busy)

/-- The outputs in the direct table. -/
def macBusyDirect (nextIdStall : Bool) (busy : Expr) : Bool × Bool :=
  (selectMacBusy [(!nextIdStall, "EX_NOT_STALL"), (true, "EX_BUSY")] false busy,
    selectMacBusy [(!nextIdStall, "WB_NOT_STALL"), (true, "WB_BUSY")] false busy)

end Gen

end JCore
