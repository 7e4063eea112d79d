import Mathlib.Data.Int.Notation
import Mathlib.Data.Nat.Notation

/-!
# The control signals of the generated decoder

From `interface.clj` and `genvhdl.clj`: the control signals with their types, the values
that stand for them in a slot, and the VHDL expressions that these become.

## Main definitions

* `controlType`: the control signals
* `assignVal`: the expression for a value
* `defaultControl`: the value for a slot that leaves out a signal
* `assignVal_default`: it stands for the signal's zero value
-/

namespace JCore

namespace Gen

/-- A value in the control map of a slot. -/
inductive Val where
  | num (n : ℤ)
  | kw (name : String)
  | bool (b : Bool)
  | pair (a b : String)
  | imm (sign : String) (width shift : ℕ)
  deriving DecidableEq, Repr

/-- An expression that is assigned to a control signal. Register numbers and immediate
values, which may be fields of the instruction word, stay as they are. -/
inductive Expr where
  | bit (b : Bool)
  | tBcc
  | notTBcc
  | literal (name : String)
  | operand (v : Val)
  deriving DecidableEq, Repr

/-- The type of a control signal. -/
inductive SigType where
  | stdLogic
  | enum (key : String)
  | operand
  deriving DecidableEq, Repr

/-- `enums`: the values of the enumerations with their literals. -/
def enums : List (String × List (Val × String)) := [
  ("arith-func", [(.kw "add", "ADD"), (.kw "sub", "SUB")]),
  ("arith-sr-func", [(.kw "zero", "ZERO"), (.kw "overunderflow", "OVERUNDERFLOW"),
    (.kw "u>=", "UGRTER_EQ"), (.kw "s>=", "SGRTER_EQ"), (.kw "u>", "UGRTER"),
    (.kw "s>", "SGRTER"), (.kw "div0s", "DIV0S"), (.kw "div1", "DIV1")]),
  ("logic-func", [(.kw "not", "LOGIC_NOT"), (.kw "and", "LOGIC_AND"), (.kw "or", "LOGIC_OR"),
    (.kw "xor", "LOGIC_XOR")]),
  ("logic-sr-func", [(.kw "zero", "ZERO"), (.kw "b=", "BYTE_EQ")]),
  ("sr-sel", [(.kw "prev", "SEL_PREV"), (.kw "wbus", "SEL_WBUS"), (.kw "zbus", "SEL_ZBUS"),
    (.kw "div0u", "SEL_DIV0U"), (.kw "arith", "SEL_ARITH"), (.kw "logic", "SEL_LOGIC"),
    (.kw "int-mask", "SEL_INT_MASK"), (.kw "set-t", "SEL_SET_T")]),
  ("t-sel", [(.kw "clear", "SEL_CLEAR"), (.kw "set", "SEL_SET"), (.kw "shift", "SEL_SHIFT"),
    (.kw "carry", "SEL_CARRY")]),
  ("alumanip", [(.pair "swap" "b", "SWAP_BYTE"), (.pair "swap" "w", "SWAP_WORD"),
    (.pair "ext" "ub", "EXTEND_UBYTE"), (.pair "ext" "uw", "EXTEND_UWORD"),
    (.pair "ext" "sb", "EXTEND_SBYTE"), (.pair "ext" "sw", "EXTEND_SWORD"),
    (.kw "xtract", "EXTRACT"), (.kw "bit7", "SET_BIT_7")]),
  ("aluinx-sel", [(.kw "xbus", "SEL_XBUS"), (.kw "fc", "SEL_FC"), (.kw "rotcl", "SEL_ROTCL"),
    (.kw "zero", "SEL_ZERO")]),
  ("aluiny-sel", [(.kw "ybus", "SEL_YBUS"), (.kw "imm", "SEL_IMM"), (.kw "r0", "SEL_R0")]),
  ("macsel1", [(.kw "xbus", "SEL_XBUS"), (.kw "zbus", "SEL_ZBUS"), (.kw "wbus", "SEL_WBUS")]),
  ("macsel2", [(.kw "ybus", "SEL_YBUS"), (.kw "zbus", "SEL_ZBUS"), (.kw "wbus", "SEL_WBUS")]),
  ("xbus-sel", [(.kw "imm", "SEL_IMM"), (.kw "reg", "SEL_REG"), (.kw "pc", "SEL_PC")]),
  ("ybus-sel", [(.kw "imm", "SEL_IMM"), (.kw "reg", "SEL_REG"), (.kw "mach", "SEL_MACH"),
    (.kw "macl", "SEL_MACL"), (.kw "pc", "SEL_PC"), (.kw "sr", "SEL_SR")]),
  ("zbus-sel", [(.kw "arith", "SEL_ARITH"), (.kw "logic", "SEL_LOGIC"),
    (.kw "shift", "SEL_SHIFT"), (.kw "manip", "SEL_MANIP"), (.kw "ybus", "SEL_YBUS"),
    (.kw "wbus", "SEL_WBUS")]),
  ("shiftfunc", [(.kw "logic", "LOGIC"), (.kw "arith", "ARITH"), (.kw "rotate", "ROTATE"),
    (.kw "rotatec", "ROTC")]),
  ("mem-addr-sel", [(.kw "xbus", "SEL_XBUS"), (.kw "ybus", "SEL_YBUS"),
    (.kw "zbus", "SEL_ZBUS")]),
  ("mem-wdata-sel", [(.kw "zbus", "SEL_ZBUS"), (.kw "ybus", "SEL_YBUS")]),
  ("mem-size", [(.kw "byte", "BYTE"), (.kw "word", "WORD"), (.kw "long", "LONG")]),
  ("mac-busy", [(.kw "nop", "NOT_BUSY"), (.pair "ex" "not-stall", "EX_NOT_STALL"),
    (.pair "wb" "not-stall", "WB_NOT_STALL"), (.pair "ex" "busy", "EX_BUSY"),
    (.pair "wb" "busy", "WB_BUSY")]),
  ("mac-op", [(.kw "nop", "NOP"), (.kw "dmulsl", "DMULSL"), (.kw "dmulul", "DMULUL"),
    (.kw "macl", "MACL"), (.kw "macw", "MACW"), (.kw "mull", "MULL"), (.kw "mulsw", "MULSW"),
    (.kw "muluw", "MULUW")]),
  ("cpu-data-mux", [(.kw "dbus", "DBUS"), (.kw "coproc", "COPROC")]),
  ("coproc-cmd", [(.kw "nop", "NOP"), (.kw "lds", "LDS"), (.kw "sts", "STS"),
    (.kw "clds", "CLDS"), (.kw "csts", "CSTS")])]

/-- The control signals of the table: the outputs of the pipeline stages, those of the
table itself, and the signal for the state of the multiplier, from which both
`mac_busy` outputs are made. -/
def controls : List (String × SigType) := [
  -- instruction decode
  ("incpc", .stdLogic), ("if-issue", .stdLogic), ("ifadsel", .stdLogic),
  -- execute
  ("imm-val", .operand), ("xbus-sel", .enum "xbus-sel"), ("ybus-sel", .enum "ybus-sel"),
  ("regnum-x", .operand), ("regnum-y", .operand), ("regnum-z", .operand),
  ("alumanip", .enum "alumanip"), ("aluinx-sel", .enum "aluinx-sel"),
  ("aluiny-sel", .enum "aluiny-sel"), ("arith-func", .enum "arith-func"),
  ("arith-ci-en", .stdLogic), ("arith-sr-func", .enum "arith-sr-func"),
  ("logic-func", .enum "logic-func"), ("logic-sr-func", .enum "logic-sr-func"),
  ("ma-wr", .stdLogic), ("mem-lock", .stdLogic), ("mem-size", .enum "mem-size"),
  ("coproc-cmd", .enum "coproc-cmd"),
  -- execute, unless stalled
  ("wrpc-z", .stdLogic), ("wrsr-z", .stdLogic), ("ma-issue", .stdLogic), ("wrpr-pc", .stdLogic),
  ("zbus-sel", .enum "zbus-sel"), ("sr-sel", .enum "sr-sel"), ("t-sel", .enum "t-sel"),
  ("mem-addr-sel", .enum "mem-addr-sel"), ("mem-wdata-sel", .enum "mem-wdata-sel"),
  ("wrreg-z", .stdLogic), ("ex-wrmach", .stdLogic), ("ex-wrmacl", .stdLogic),
  ("shiftfunc", .enum "shiftfunc"), ("ex-mulcom1", .stdLogic), ("ex-mulcom2", .enum "mac-op"),
  ("ex-macsel1", .enum "macsel1"), ("ex-macsel2", .enum "macsel2"),
  -- write back
  ("regnum-w", .operand), ("wb-mulcom1", .stdLogic), ("wb-wrmach", .stdLogic),
  ("wb-wrmacl", .stdLogic), ("wrreg-w", .stdLogic), ("wrsr-w", .stdLogic),
  ("wb-macsel1", .enum "macsel1"), ("wb-macsel2", .enum "macsel2"),
  ("wb-mulcom2", .enum "mac-op"), ("cpu-data-mux", .enum "cpu-data-mux"),
  -- the table
  ("slp", .stdLogic), ("debug", .stdLogic), ("mac-s-latch", .stdLogic), ("dispatch", .stdLogic),
  ("delay-jump", .stdLogic), ("ilevel-cap", .stdLogic), ("event-ack-0", .stdLogic),
  ("mac-stall-sense", .stdLogic), ("maskint-next", .stdLogic), ("mac-busy", .enum "mac-busy")]

def controlType (k : String) : Option SigType := controls.lookup k

/-- `nillable-outputs` -/
def nillableOutputs : List String := [
  "shiftfunc", "imm-val", "ma-wr", "arith-func", "arith-sr-func", "logic-func", "logic-sr-func",
  "zbus-sel", "mem-addr-sel", "mem-size", "mem-wdata-sel", "regnum-w", "regnum-x", "regnum-y",
  "regnum-z"]

/-- The default of a signal: the first value of an enumeration, otherwise 0. -/
def defaultControl (k : String) : Val :=
  match controlType k with
  | some (.enum key) => (((enums.lookup key).bind List.head?).map Prod.fst).getD (.num 0)
  | _ => .num 0

/-- `num-val` for `std_logic`, which accepts no other number. -/
def numVal : ℤ → Option Expr
  | 0 => some (.bit false)
  | 1 => some (.bit true)
  | _ => none

/-- `assign-val-transform`, with the check and the conversion of `assign`: no expression
for a value that is none of the signal. -/
def assignVal (k : String) (v : Val) : Option Expr :=
  match controlType k with
  | none => none
  | some (.enum key) => ((enums.lookup key).bind fun vals => vals.lookup v).map .literal
  | some .operand => some (.operand v)
  | some .stdLogic =>
    if k = "if-issue" ∨ k = "dispatch" ∨ k = "ma-issue" then
      match v with
      | .bool true => some (.bit true)
      | .num 0 => some (.bit false)
      | .kw "t" => some .tBcc
      | .kw "nt" => some .notTBcc
      | _ => none
    else if k = "arith-ci-en" then
      match v with
      | .bool b => some (.bit b)
      | .num n => numVal n
      | _ => none
    else
      match v with
      | .kw name =>
        if k = "wrpc-z" then
          if name = "t" then some .tBcc else if name = "nt" then some .notTBcc else none
        else none
      | .num n => numVal n
      | _ => none

/-- `zero-val` -/
def zeroVal (k : String) : Expr :=
  match controlType k with
  | some (.enum key) =>
    .literal ((((enums.lookup key).bind List.head?).map Prod.snd).getD "")
  | some .stdLogic => .bit false
  | _ => .operand (.num 0)

/-- The default stands for zero, of whatever type the signal is. -/
theorem assignVal_default {k : String} (h : k ∈ controls.map Prod.fst) :
    assignVal k (defaultControl k) = some (zeroVal k) := by
  have test : ∀ k ∈ controls.map Prod.fst,
      assignVal k (defaultControl k) = some (zeroVal k) := by decide +kernel
  exact test k h

end Gen

end JCore
