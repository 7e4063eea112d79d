import JCore.Pack.Decode

/-!
# Logic maps of the generator

The functions of `logic.clj`: the conditions for an instruction pattern as maps from
bits to their values, the patterns for `std_match` and the expressions made of them, and
the reduction of several conditions for the same value by a minimiser for two-level logic.

## Main definitions

* `opToLogicMap`: the condition for an instruction
* `reduceImplicants`: conditions with the same disjunction
* `stdMatch`, `logicMapToBit`: the values of the generated expressions
-/

namespace JCore

namespace Gen

/-- A bit that a condition may depend on: of the plane, of the instruction word, and of
the address of the step. -/
inductive LogicVar where
  | p (i : ℕ) | i (i : ℕ) | s (i : ℕ)
  deriving DecidableEq, Repr

/-- The bits that a condition fixes. -/
abbrev LogicMap := List (LogicVar × Bool)

/-- The value of a bit. The plane has one, which is set for system operations. -/
def opBit (op : Operation) : LogicVar → Bool
  | .p _ => op.plane == .systemInstr
  | .i n => op.code.getLsbD n
  | .s n => op.addr.getLsbD n

/-- `merge`: entries of the second map go before those of the first. -/
def LogicMap.merge (m m' : LogicMap) : LogicMap := m' ++ m

/-- The bit that a character of a pattern asks for. -/
def charBit (c : Char) : Option Bool :=
  if c = '0' then some false else if c = '1' then some true else none

/-- `str-to-logic-map` -/
def strToLogicMap (k : ℕ → LogicVar) (s : List Char) : LogicMap :=
  (s.filter fun c => c != ' ').reverse.zipIdx.filterMap fun (c, n) =>
    (charBit c).map fun b => (k n, b)

/-- `op-to-logic-map`, of the plane and the pattern of an instruction. -/
def opToLogicMap (plane : Char) (op : List Char) : LogicMap :=
  LogicMap.merge (strToLogicMap .i op) (strToLogicMap .p [plane])

/-- `logic-map-to-stdmatch` and `std_match`, for one bit of the plane and 16 of the
instruction: bits that the map leaves out are matched by anything. -/
def stdMatch (m : LogicMap) (op : Operation) : Bool :=
  ([LogicVar.p 0] ++ (List.range 16).reverse.map LogicVar.i).all fun v =>
    match m.lookup v with
    | some b => opBit op v == b
    | none => true

/-- The value of `logic-map-to-bit`, which for an empty map is `nil`. -/
def logicMapToBit (m : LogicMap) (op : Operation) : Option Bool :=
  if m.isEmpty then none else some (m.all fun p => opBit op p.1 == p.2)

/-- The value of `v-or`, which leaves out `nil` and throws if nothing else is there. -/
def vOr (xs : List (Option Bool)) : Option Bool :=
  match xs.filterMap id with
  | [] => none
  | bs => some (bs.any id)

/-- The two steps of the minimiser on a list of terms. -/
abbrev Minimiser := List (List (Option Bool)) → List (List (Option Bool))

/-- `reduce-implicants`: the maps as terms over the bits that occur, and back. -/
def reduceImplicants (reduce : Minimiser) (maps : List LogicMap) : List LogicMap :=
  if maps.isEmpty then []
  else
    let keys := (maps.flatMap fun m => m.map Prod.fst).eraseDups
    let terms := maps.map fun m => keys.map fun k => m.lookup k
    (reduce terms).map fun t => (keys.zip t).filterMap fun (k, b) => b.map fun b => (k, b)

end Gen

end JCore
