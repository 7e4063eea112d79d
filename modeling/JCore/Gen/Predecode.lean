import JCore.Gen.IllegalSlot

/-!
# The generated predecode function

The function from an instruction word to the first ROM address of its instruction, as
`gen-predecode-fn` of `util.clj` makes it: a case for each first nibble, and in it an
expression for each bit of the address.

## Main definitions

* `toPredecodeConditions`, `chooseCover`, `assignBit`: the expression for a bit
* `genPredecodeFn`, `evalPredecode`: the generated function

## Main results

* `assignBit_exact`: the expressions for a bit of a group of instructions
* `predecode_exact`: the function finds the address of every normal instruction
-/

namespace JCore

namespace Gen

/-- A normal or a system instruction, with the address that it has in the ROM. -/
structure PredecodeOp where
  op : OpPattern
  plane : Bool
  index : BitVec 8

/-! ### The first nibble -/

/-- The value of binary digits. -/
def parseDigits (ds : List Char) : Option ℕ :=
  if ds.isEmpty then none
  else ds.foldl (fun n c => n.bind fun n => (charBit c).map fun b => 2 * n + b.toNat) (some 0)

/-- `Integer/parseInt` in base 2, which throws for what is no number. -/
def parseInt : List Char → Option ℤ
  | '-' :: ds => (parseDigits ds).map fun n => -n
  | '+' :: ds => (parseDigits ds).map fun n => n
  | ds => (parseDigits ds).map fun n => n

/-- The line of an instruction: the number that the first word of its pattern is. -/
def OpPattern.line (op : OpPattern) : Option ℤ := parseInt (op.chars.takeWhile fun c => c != ' ')

/-- The first four characters of the pattern are a word, of literal bits. -/
def OpPattern.LiteralNibble (op : OpPattern) : Prop :=
  ∃ word rest, op.chars = word ++ ' ' :: rest ∧ word.length = 4 ∧ ∀ c ∈ word, c = '0' ∨ c = '1'

/-! ### The expressions -/

/-- `dissoc` -/
def dissoc (m : LogicMap) (ks : List LogicVar) : LogicMap := m.filter fun p => !ks.contains p.1

/-- The `:logic-map` of an instruction, without the plane and the line. -/
def PredecodeOp.lineMap (o : PredecodeOp) : LogicMap :=
  dissoc (dissoc (LogicMap.merge o.op.logicMap
    (strToLogicMap .p [if o.plane then '1' else '0'])) [.p 0]) [.i 12, .i 13, .i 14, .i 15]

/-- `to-predecode-conditions`: for each bit of the address the reduced conditions of the
instructions that set it, and of those that do not. -/
def toPredecodeConditions (reduce : Minimiser) (bitWidth : ℕ) (ops : List PredecodeOp) :
    List (Option (List LogicMap) × Option (List LogicMap)) :=
  (List.range bitWidth).map fun i =>
    let on := ops.filter fun o => o.index.getLsbD i
    let off := ops.filter fun o => !o.index.getLsbD i
    (if on.isEmpty then none else some (reduceImplicants reduce (on.map PredecodeOp.lineMap)),
      if off.isEmpty then none else some (reduceImplicants reduce (off.map PredecodeOp.lineMap)))

/-- The conditions that a bit is made from, and whether it is inverted. -/
def chooseCover : Option (List LogicMap) × Option (List LogicMap) → Bool × List LogicMap
  | (none, _) => (true, [])
  | (some _, none) => (false, [])
  | (some on, some off) =>
    if on.length = 0 ∨ off.length ≤ on.length then (true, off) else (false, on)

/-- What is assigned to a bit: a value, or whether some condition holds. -/
inductive BitExpr where
  | const (b : Bool)
  | anyOf (invert : Bool) (imps : List LogicMap)

/-- `assign-addr`, for a bit. Conditions that are empty are `nil`; `v-or` leaves them out and
throws if no others are there. -/
def assignBit (invert : Bool) (imps : List LogicMap) : Option BitExpr :=
  if imps.isEmpty then some (.const !invert)
  else
    match imps.filter fun m => !m.isEmpty with
    | [] => none
    | conds => some (.anyOf invert conds)

def BitExpr.eval (code : BitVec 16) : BitExpr → Bool
  | .const b => b
  | .anyOf invert imps => (imps.any fun m => m.all fun p => codeBit code p.1 == p.2) ^^ invert

/-- The statements for a line: the address, or one statement for each bit. -/
inductive LineAssign where
  | addr (index : BitVec 8)
  | bits (exprs : List BitExpr)

def LineAssign.eval (code : BitVec 16) : LineAssign → BitVec 8
  | .addr index => index
  | .bits exprs => (BitVec.ofBoolListLE (exprs.map (BitExpr.eval code))).setWidth 8

/-- The statements for the instructions of a line. -/
def lineAssign (reduce : Minimiser) (ops : List PredecodeOp) : Option LineAssign :=
  match ops with
  | [o] => some (.addr o.index)
  | _ =>
    ((toPredecodeConditions reduce 8 ops).mapM fun conds =>
      assignBit (chooseCover conds).1 (chooseCover conds).2).map .bits

/-- `gen-predecode-fn`: the cases of the function, each with its line. -/
def genPredecodeFn (reduce : Minimiser) (ops : List PredecodeOp) :
    Option (List (ℤ × LineAssign)) := do
  let lineOps ← (ops.filter fun o => !o.plane).mapM fun o => o.op.line.map fun line => (line, o)
  let lines := (lineOps.map Prod.fst).eraseDups.insertionSort (· ≤ ·)
  lines.mapM fun line =>
    (lineAssign reduce ((lineOps.filter fun p => p.1 == line).map Prod.snd)).map fun a => (line, a)

/-- The value of the function: that of the case for the first nibble, and 255 in the others. -/
def evalPredecode (f : List (ℤ × LineAssign)) (code : BitVec 16) : BitVec 8 :=
  match f.lookup ((code.extractLsb 15 12).toNat : ℤ) with
  | some a => a.eval code
  | none => 255

/-- What the predecode function relies on in a table: the normal instructions share no opcode,
and each has a literal first nibble. -/
structure PredecodeTable where
  ops : List PredecodeOp
  disjoint : (ops.filter fun o => !o.plane).Pairwise fun o o' =>
    ¬ ∃ code, o.op.Matches code ∧ o'.op.Matches code
  literal : ∀ o ∈ ops, o.plane = false → o.op.LiteralNibble

/-! ### The nibble and the other bits -/

/-- The line of a pattern is the nibble that all its opcodes have. -/
theorem OpPattern.LiteralNibble.exists_line {op : OpPattern} (h : op.LiteralNibble) :
    ∃ nibble : BitVec 4, op.line = some (nibble.toNat : ℤ) ∧
      ∀ k < 4, (op.char? (12 + k)).bind charBit = some (nibble.getLsbD k) := by
  obtain ⟨word, rest, hchars, hlen, hword⟩ := h
  have blanks : ∀ c ∈ word, (c != ' ') = true := by
    intro c hc
    rcases hword c hc with rfl | rfl <;> rfl
  have hline : op.line = parseInt word := by
    rw [line, hchars, List.takeWhile_append_of_pos blanks, List.takeWhile_cons_of_neg (by decide),
      List.append_nil]
  have hfilter : op.chars.filter (fun c => c != ' ') = word ++ rest.filter fun c => c != ' ' := by
    rw [hchars, List.filter_append, List.filter_eq_self.mpr blanks, List.filter_cons_of_neg (by decide)]
  have hrest : (rest.filter fun c => c != ' ').length = 12 := by
    have := op.width
    rw [hfilter, List.length_append, hlen] at this
    omega
  have hchar : ∀ k, op.char? (12 + k) = word.reverse[k]? := by
    intro k
    have hle : (rest.filter fun c => c != ' ').reverse.length ≤ 12 + k := by
      rw [List.length_reverse, hrest]
      exact Nat.le_add_right 12 k
    rw [char?, hfilter, List.reverse_append, List.getElem?_append_right hle, List.length_reverse,
      hrest, Nat.add_sub_cancel_left]
  simp only [hline, hchar]
  obtain ⟨c₃, c₂, c₁, c₀, rfl⟩ := List.length_eq_four.mp hlen
  refine ⟨(BitVec.ofBoolListBE ([c₃, c₂, c₁, c₀].map (· == '1'))).setWidth 4, ?_⟩
  simp only [List.forall_mem_cons, List.not_mem_nil, false_imp_iff, implies_true, and_true] at hword
  obtain ⟨h₃, h₂, h₁, h₀⟩ := hword
  rcases h₃ with rfl | rfl <;> rcases h₂ with rfl | rfl <;> rcases h₁ with rfl | rfl <;>
    rcases h₀ with rfl | rfl <;> exact ⟨rfl, by decide⟩

theorem PredecodeOp.mem_lineMap {o : PredecodeOp} {k : LogicVar} {v : Bool} :
    (k, v) ∈ o.lineMap ↔ ∃ n < 12, k = .i n ∧ (o.op.char? n).bind charBit = some v := by
  simp only [lineMap, dissoc, LogicMap.merge, List.mem_filter, List.mem_append,
    OpPattern.mem_logicMap_iff, Bool.not_eq_true', List.contains_eq_mem, decide_eq_false_iff_not,
    List.mem_cons, List.not_mem_nil, or_false, not_or]
  constructor
  · rintro ⟨⟨hmem | ⟨n, rfl, hn⟩, hplane⟩, h₁₂, h₁₃, h₁₄, h₁₅⟩
    · obtain ⟨n, hlt, hkey⟩ := mem_strToLogicMap hmem
      have hle : ([if o.plane then '1' else '0'].filter fun c => c != ' ').length ≤ 1 :=
        List.length_filter_le _ _
      obtain rfl : n = 0 := by omega
      exact absurd hkey hplane
    · have hlt := OpPattern.lt_of_char? hn
      simp only [LogicVar.i.injEq] at h₁₂ h₁₃ h₁₄ h₁₅
      exact ⟨n, by omega, rfl, hn⟩
  · rintro ⟨n, hlt, rfl, hn⟩
    simp only [LogicVar.i.injEq, reduceCtorEq, not_false_iff, and_true]
    exact ⟨.inr ⟨n, rfl, hn⟩, by omega, by omega, by omega, by omega⟩

theorem PredecodeOp.consistent_lineMap (o : PredecodeOp) : Consistent o.lineMap := by
  intro k v w hv hw
  obtain ⟨n, -, rfl, hn⟩ := mem_lineMap.mp hv
  obtain ⟨m, -, h, hm⟩ := mem_lineMap.mp hw
  rw [LogicVar.i.injEq] at h
  rw [← h, hn] at hm
  exact Option.some.inj hm

/-- An opcode matches a pattern if it has its nibble, and the bits that are left. -/
theorem PredecodeOp.matches_iff {o : PredecodeOp} {nibble : BitVec 4}
    (hnibble : ∀ k < 4, (o.op.char? (12 + k)).bind charBit = some (nibble.getLsbD k))
    (code : BitVec 16) :
    o.op.Matches code ↔ code.extractLsb 15 12 = nibble ∧ Sat (codeBit code) o.lineMap := by
  rw [o.consistent_lineMap.sat_iff]
  constructor
  · intro hmatches
    constructor
    · refine BitVec.eq_of_getLsbD_eq fun k hk => ?_
      rw [BitVec.getLsbD_extractLsb, decide_eq_true hk, Bool.true_and]
      exact hmatches (12 + k) _ (hnibble k hk)
    · intro k v hv
      obtain ⟨n, -, rfl, hn⟩ := mem_lineMap.mp hv
      exact hmatches n v hn
  · rintro ⟨hcode, hsat⟩ n b hn
    rcases Nat.lt_or_ge n 12 with hlt | hge
    · exact hsat (.i n) b (mem_lineMap.mpr ⟨n, hlt, rfl, hn⟩)
    · obtain ⟨k, rfl⟩ := Nat.exists_eq_add_of_le hge
      have hk : k < 4 := by
        have := OpPattern.lt_of_char? hn
        omega
      rw [hnibble k hk, ← hcode, BitVec.getLsbD_extractLsb, decide_eq_true hk, Bool.true_and] at hn
      exact Option.some.inj hn

/-! ### Lists of results -/

theorem exists_mapM {α β : Type*} {f : α → Option β} {Q : α → β → Prop} {l : List α}
    (h : ∀ a ∈ l, ∃ b, f a = some b ∧ Q a b) : ∃ r, l.mapM f = some r ∧ List.Forall₂ Q l r := by
  induction l with
  | nil => exact ⟨[], rfl, .nil⟩
  | cons a l ih =>
    obtain ⟨b, hb, hQ⟩ := h a List.mem_cons_self
    obtain ⟨r, hr, hl⟩ := ih fun a' ha' => h a' (List.mem_cons_of_mem a ha')
    refine ⟨b :: r, ?_, .cons hQ hl⟩
    rw [List.mapM_cons, hb, hr]
    rfl

theorem exists_of_forall₂_left {α β : Type*} {Q : α → β → Prop} {l : List α} {r : List β}
    (h : List.Forall₂ Q l r) {a : α} (ha : a ∈ l) : ∃ b ∈ r, Q a b := by
  induction h with
  | nil => exact absurd ha List.not_mem_nil
  | cons hQ _ ih =>
    rcases List.mem_cons.mp ha with rfl | hmem
    · exact ⟨_, List.mem_cons_self, hQ⟩
    · obtain ⟨b, hb, hQ⟩ := ih hmem
      exact ⟨b, List.mem_cons_of_mem _ hb, hQ⟩

theorem exists_of_forall₂_right {α β : Type*} {Q : α → β → Prop} {l : List α} {r : List β}
    (h : List.Forall₂ Q l r) {b : β} (hb : b ∈ r) : ∃ a ∈ l, Q a b :=
  exists_of_forall₂_left h.flip hb

theorem map_eq_of_forall₂ {α β γ : Type*} {f : α → γ} {g : β → γ} {l : List α} {r : List β}
    (h : List.Forall₂ (fun a b => g b = f a) l r) : r.map g = l.map f := by
  induction h with
  | nil => rfl
  | cons hb _ ih => rw [List.map_cons, List.map_cons, hb, ih]

/-! ### The bits of a group -/

namespace PredecodeTable

variable (table : PredecodeTable)

/-- The opcodes of the normal instructions, as assignments. -/
def Care (σ : LogicVar → Bool) : Prop :=
  ∃ o ∈ table.ops, o.plane = false ∧ ∃ code, o.op.Matches code ∧ σ = codeBit code

/-- An opcode matches one normal instruction at most. -/
theorem eq_of_matches {o o' : PredecodeOp} (ho : o ∈ table.ops) (hplane : o.plane = false)
    (ho' : o' ∈ table.ops) (hplane' : o'.plane = false) {code : BitVec 16}
    (hcode : o.op.Matches code) (hcode' : o'.op.Matches code) : o = o' := by
  by_contra ne
  have symm : Std.Symm fun o o' : PredecodeOp =>
      ¬ ∃ code, o.op.Matches code ∧ o'.op.Matches code :=
    ⟨fun _ _ h h' => h (h'.imp fun _ => And.symm)⟩
  have normal : ∀ o ∈ table.ops, o.plane = false → o ∈ table.ops.filter fun o => !o.plane := by
    intro o ho hplane
    rw [List.mem_filter, hplane]
    exact ⟨ho, rfl⟩
  exact table.disjoint.forall (normal o ho hplane) (normal o' ho' hplane') ne ⟨code, hcode, hcode'⟩

/-- A group of normal instructions of the table on one line. -/
structure Group where
  ops : List PredecodeOp
  nibble : BitVec 4
  mem : ∀ o ∈ ops, o ∈ table.ops
  normal : ∀ o ∈ ops, o.plane = false
  line : ∀ o ∈ ops, ∀ k < 4, (o.op.char? (12 + k)).bind charBit = some (nibble.getLsbD k)

variable {table} {reduce : Minimiser} (exact : ExactOn reduce table.Care) (group : table.Group)

include exact

/-- The conditions of a part of a group cover, of the opcodes of the group, those of the part. -/
theorem exists_cover_iff {part : List PredecodeOp} (hpart : ∀ o ∈ part, o ∈ group.ops)
    {o : PredecodeOp} (ho : o ∈ group.ops) {code : BitVec 16} (hcode : o.op.Matches code) :
    (∃ m ∈ reduceImplicants reduce (part.map PredecodeOp.lineMap),
      (m.all fun p => codeBit code p.1 == p.2) = true) ↔ o ∈ part := by
  have care : table.Care (codeBit code) :=
    ⟨o, group.mem o ho, group.normal o ho, code, hcode, rfl⟩
  have hline := (PredecodeOp.matches_iff (group.line o ho) code).mp hcode
  rw [exists_all_reduceImplicants_of_care exact _ care]
  constructor
  · rintro ⟨m, hm, sat⟩
    obtain ⟨o', ho', rfl⟩ := List.mem_map.mp hm
    have hgroup := hpart o' ho'
    have hcode' := (PredecodeOp.matches_iff (group.line o' hgroup) code).mpr ⟨hline.1, sat⟩
    rwa [table.eq_of_matches (group.mem o ho) (group.normal o ho) (group.mem o' hgroup)
      (group.normal o' hgroup) hcode hcode']
  · exact fun hmem => ⟨_, List.mem_map_of_mem hmem, hline.2⟩

/-- The expression from the conditions of a part that is neither empty nor the whole group. -/
theorem assignBit_part {part : List PredecodeOp} (hpart : ∀ o ∈ part, o ∈ group.ops)
    (hne : part ≠ []) {o : PredecodeOp} (ho : o ∈ group.ops) (hout : o ∉ part) (invert : Bool) :
    ∃ e, assignBit invert (reduceImplicants reduce (part.map PredecodeOp.lineMap)) = some e ∧
      ∀ o ∈ group.ops, ∀ code, o.op.Matches code →
        (e.eval code = true ↔ (o ∈ part ↔ invert = false)) := by
  generalize himps : reduceImplicants reduce (part.map PredecodeOp.lineMap) = imps
  have cover : ∀ o ∈ group.ops, ∀ code, o.op.Matches code →
      ((∃ m ∈ imps, (m.all fun p => codeBit code p.1 == p.2) = true) ↔ o ∈ part) :=
    fun o ho code hcode => himps ▸ exists_cover_iff exact group hpart ho hcode
  have some_cond : imps ≠ [] := by
    obtain ⟨o', ho'⟩ := List.exists_mem_of_ne_nil part hne
    obtain ⟨code, hcode⟩ := o'.op.exists_matches
    obtain ⟨m, hm, -⟩ := (cover o' (hpart o' ho') code hcode).mpr ho'
    exact List.ne_nil_of_mem hm
  have no_empty : imps.filter (fun m => !m.isEmpty) = imps := by
    refine List.filter_eq_self.mpr fun m hm => ?_
    rw [Bool.not_eq_true', Bool.eq_false_iff]
    intro hempty
    rw [List.isEmpty_iff] at hempty
    obtain ⟨code, hcode⟩ := o.op.exists_matches
    exact hout ((cover o ho code hcode).mp ⟨m, hm, hempty ▸ rfl⟩)
  refine ⟨.anyOf invert imps, ?_, fun o ho code hcode => ?_⟩
  · rw [assignBit, if_neg (mt List.isEmpty_iff.mp some_cond), no_empty]
    cases imps with
    | nil => exact absurd rfl some_cond
    | cons m imps => rfl
  · rw [← cover o ho code hcode, ← List.any_eq_true, BitExpr.eval]
    cases imps.any fun m => m.all fun p => codeBit code p.1 == p.2 <;> cases invert <;> decide

/-- The expression for a bit of a group has the value of the bit in the address of the
instruction. -/
theorem assignBit_exact (i : ℕ) :
    let on := group.ops.filter fun o => o.index.getLsbD i
    let off := group.ops.filter fun o => !o.index.getLsbD i
    let conds := chooseCover
      (if on.isEmpty then none else some (reduceImplicants reduce (on.map PredecodeOp.lineMap)),
        if off.isEmpty then none else some (reduceImplicants reduce (off.map PredecodeOp.lineMap)))
    ∃ e, assignBit conds.1 conds.2 = some e ∧
      ∀ o ∈ group.ops, ∀ code, o.op.Matches code → e.eval code = o.index.getLsbD i := by
  intro on off conds
  have mem_on : ∀ o, o ∈ on ↔ o ∈ group.ops ∧ o.index.getLsbD i = true := fun o => List.mem_filter
  have mem_off : ∀ o, o ∈ off ↔ o ∈ group.ops ∧ o.index.getLsbD i = false := fun o => by
    rw [List.mem_filter, Bool.not_eq_true']
  have apart : ∀ o ∈ on, o ∉ off := fun o ho ho' =>
    Bool.false_ne_true (((mem_off o).mp ho').2.symm.trans ((mem_on o).mp ho).2)
  -- where all operations of the line agree the bit is constant
  by_cases hon : on = []
  · have hconds : conds = (true, []) := by
      simp only [conds, hon, List.isEmpty_nil, if_true, chooseCover]
    refine ⟨.const false, by rw [hconds]; rfl, fun o ho code _ => (Bool.eq_false_iff.mpr ?_).symm⟩
    exact fun hbit => List.not_mem_nil (hon ▸ (mem_on o).mpr ⟨ho, hbit⟩)
  by_cases hoff : off = []
  · have hconds : conds = (false, []) := by
      simp only [conds, hoff, List.isEmpty_iff, hon, if_false, if_true, chooseCover]
    refine ⟨.const true, by rw [hconds]; rfl, fun o ho code _ => (Bool.eq_true_of_not_eq_false ?_).symm⟩
    exact fun hbit => List.not_mem_nil (hoff ▸ (mem_off o).mpr ⟨ho, hbit⟩)
  obtain ⟨oOn, hoOn⟩ := List.exists_mem_of_ne_nil on hon
  obtain ⟨oOff, hoOff⟩ := List.exists_mem_of_ne_nil off hoff
  -- else one of the two covers is chosen, and it is that of the operations with the bit or of
  -- those without
  have hconds : conds = (true, reduceImplicants reduce (off.map PredecodeOp.lineMap)) ∨
      conds = (false, reduceImplicants reduce (on.map PredecodeOp.lineMap)) := by
    simp only [conds, List.isEmpty_iff, hon, hoff, if_false, chooseCover]
    split_ifs
    · exact .inl rfl
    · exact .inr rfl
  rcases hconds with hconds | hconds
  · obtain ⟨e, he, heval⟩ := assignBit_part exact group (fun o ho => ((mem_off o).mp ho).1) hoff
      ((mem_on oOn).mp hoOn).1 (apart oOn hoOn) true
    refine ⟨e, by rw [hconds, he], fun o ho code hcode => ?_⟩
    rw [Bool.eq_iff_iff, heval o ho code hcode, mem_off]
    simp [ho]
  · obtain ⟨e, he, heval⟩ := assignBit_part exact group (fun o ho => ((mem_on o).mp ho).1) hon
      ((mem_off oOff).mp hoOff).1 (fun h => apart oOff h hoOff) false
    refine ⟨e, by rw [hconds, he], fun o ho code hcode => ?_⟩
    rw [Bool.eq_iff_iff, heval o ho code hcode, mem_on]
    simp [ho]

/-- The statements for the instructions of a line find their addresses. -/
theorem lineAssign_exact : ∃ a, lineAssign reduce group.ops = some a ∧
    ∀ o ∈ group.ops, ∀ code, o.op.Matches code → a.eval code = o.index := by
  have bits : ∃ a, ((toPredecodeConditions reduce 8 group.ops).mapM fun conds =>
      assignBit (chooseCover conds).1 (chooseCover conds).2).map LineAssign.bits = some a ∧
        ∀ o ∈ group.ops, ∀ code, o.op.Matches code → a.eval code = o.index := by
    obtain ⟨exprs, hexprs, hvalues⟩ := exists_mapM (l := List.range 8)
      fun i _ => assignBit_exact exact group i
    refine ⟨.bits exprs, ?_, fun o ho code hcode => ?_⟩
    · rw [toPredecodeConditions, List.mapM_map]
      exact congrArg (Option.map LineAssign.bits) hexprs
    · have hmap : exprs.map (BitExpr.eval code) = (List.range 8).map o.index.getLsbD :=
        map_eq_of_forall₂ (hvalues.imp fun i e h => h o ho code hcode)
      rw [LineAssign.eval, hmap]
      refine BitVec.eq_of_getLsbD_eq fun i hi => ?_
      rw [BitVec.getLsbD_setWidth, BitVec.getLsbD_ofBoolListLE, List.getD_eq_getElem?_getD,
        List.getElem?_map, List.getElem?_range hi, decide_eq_true hi, Bool.true_and,
        Option.map_some, Option.getD_some]
  generalize group.ops = ops at bits
  match ops with
  | [] => exact bits
  | [o] =>
    refine ⟨.addr o.index, rfl, fun o' ho' code _ => ?_⟩
    rw [List.mem_singleton.mp ho']
    rfl
  | _ :: _ :: _ => exact bits

omit exact in
/-- The normal instructions, with their lines. -/
theorem exists_lineOps : ∃ lineOps,
    ((table.ops.filter fun o => !o.plane).mapM fun o => o.op.line.map fun line => (line, o)) =
      some lineOps ∧ (∀ p ∈ lineOps, p.2 ∈ table.ops ∧ p.2.plane = false ∧
        p.2.op.line = some p.1) ∧
      ∀ o ∈ table.ops, o.plane = false → ∃ line, (line, o) ∈ lineOps := by
  obtain ⟨lineOps, hlineOps, hpairs⟩ := exists_mapM (l := table.ops.filter fun o => !o.plane)
    (f := fun o => o.op.line.map fun line => (line, o))
    (Q := fun o p => o ∈ table.ops ∧ o.plane = false ∧ p.2 = o ∧ o.op.line = some p.1) (by
      intro o ho
      rw [List.mem_filter, Bool.not_eq_true'] at ho
      obtain ⟨nibble, hline, -⟩ := (table.literal o ho.1 ho.2).exists_line
      exact ⟨(nibble.toNat, o), by rw [hline]; rfl, ho.1, ho.2, rfl, hline⟩)
  refine ⟨lineOps, hlineOps, fun p hp => ?_, fun o ho hplane => ?_⟩
  · obtain ⟨o, -, hmem, hplane, rfl, hline⟩ := exists_of_forall₂_right hpairs hp
    exact ⟨hmem, hplane, hline⟩
  · have hnormal : o ∈ table.ops.filter fun o => !o.plane := by
      rw [List.mem_filter, hplane]
      exact ⟨ho, rfl⟩
    obtain ⟨p, hp, -, -, rfl, -⟩ := exists_of_forall₂_left hpairs hnormal
    exact ⟨p.1, hp⟩

omit exact in
/-- The instructions of a line are a group. -/
theorem exists_group {lineOps : List (ℤ × PredecodeOp)}
    (hpairs : ∀ p ∈ lineOps, p.2 ∈ table.ops ∧ p.2.plane = false ∧ p.2.op.line = some p.1)
    {line : ℤ} (hline : line ∈ lineOps.map Prod.fst) :
    ∃ group : table.Group, group.ops = (lineOps.filter fun p => p.1 == line).map Prod.snd ∧
      line = group.nibble.toNat := by
  obtain ⟨p, hp, rfl⟩ := List.mem_map.mp hline
  obtain ⟨hmem, hplane, hop⟩ := hpairs p hp
  obtain ⟨nibble, hnibble, -⟩ := (table.literal p.2 hmem hplane).exists_line
  have hvalue : p.1 = nibble.toNat := Option.some.inj (hop.symm.trans hnibble)
  have of_mem : ∀ o ∈ (lineOps.filter fun q => q.1 == p.1).map Prod.snd,
      o ∈ table.ops ∧ o.plane = false ∧ o.op.line = some p.1 := by
    intro o ho
    obtain ⟨q, hq, rfl⟩ := List.mem_map.mp ho
    obtain ⟨hq, hkey⟩ := List.mem_filter.mp hq
    rw [← eq_of_beq hkey]
    exact hpairs q hq
  refine ⟨{
    ops := (lineOps.filter fun q => q.1 == p.1).map Prod.snd
    nibble := nibble
    mem := fun o ho => (of_mem o ho).1
    normal := fun o ho => (of_mem o ho).2.1
    line := fun o ho k hk => ?_ }, rfl, hvalue⟩
  obtain ⟨hmem', hplane', hop'⟩ := of_mem o ho
  obtain ⟨nibble', hnibble', hbits⟩ := (table.literal o hmem' hplane').exists_line
  have heq : nibble' = nibble := by
    have := Option.some.inj (hnibble'.symm.trans hop')
    exact BitVec.eq_of_toNat_eq (Int.ofNat.inj (this.trans hvalue))
  rw [← heq]
  exact hbits k hk

end PredecodeTable

/-- For every table, and all addresses of its instructions, the predecode function is made, and
finds the address of each normal instruction for all its opcodes. -/
theorem predecode_exact (table : PredecodeTable) {reduce : Minimiser}
    (exact : ExactOn reduce table.Care) : ∃ f, genPredecodeFn reduce table.ops = some f ∧
      ∀ o ∈ table.ops, o.plane = false → ∀ code, o.op.Matches code →
        evalPredecode f code = o.index := by
  obtain ⟨lineOps, hlineOps, hpairs, hall⟩ := table.exists_lineOps
  -- each line has its own function, exact on the operations of the line
  obtain ⟨f, hf, hcases⟩ := exists_mapM
    (l := (lineOps.map Prod.fst).eraseDups.insertionSort (· ≤ ·))
    (f := fun line => (lineAssign reduce ((lineOps.filter fun p => p.1 == line).map Prod.snd)).map
      fun a => (line, a))
    (Q := fun line p => p.1 = line ∧ ∀ o, (line, o) ∈ lineOps → ∀ code, o.op.Matches code →
      p.2.eval code = o.index) (by
      intro line hline
      rw [List.mem_insertionSort, List.mem_eraseDups] at hline
      obtain ⟨group, hgroup, -⟩ := PredecodeTable.exists_group hpairs hline
      obtain ⟨a, ha, hvalues⟩ := PredecodeTable.lineAssign_exact exact group
      rw [hgroup] at ha hvalues
      refine ⟨(line, a), by rw [ha]; rfl, rfl, fun o ho => hvalues o ?_⟩
      exact List.mem_map.mpr ⟨(line, o), List.mem_filter.mpr ⟨ho, beq_self_eq_true line⟩, rfl⟩)
  refine ⟨f, ?_, fun o ho hplane code hcode => ?_⟩
  · rw [genPredecodeFn, hlineOps]
    exact hf
  -- an opcode finds the function of its line
  · obtain ⟨line, hmem⟩ := hall o ho hplane
    have hkey : line ∈ lineOps.map Prod.fst := List.mem_map_of_mem (f := Prod.fst) hmem
    obtain ⟨group, hgroup, hline⟩ := PredecodeTable.exists_group hpairs hkey
    have hcodeLine : ((code.extractLsb 15 12).toNat : ℤ) = line := by
      have hin : o ∈ group.ops := by
        rw [hgroup]
        exact List.mem_map.mpr ⟨(line, o), List.mem_filter.mpr ⟨hmem, beq_self_eq_true line⟩, rfl⟩
      rw [((PredecodeOp.matches_iff (group.line o hin) code).mp hcode).1, hline]
    rw [evalPredecode, hcodeLine]
    cases hlookup : f.lookup line with
    | none =>
      obtain ⟨p, hp, rfl, -⟩ := exists_of_forall₂_left hcases
        (List.mem_insertionSort _ |>.mpr (List.mem_eraseDups.mpr hkey))
      rw [List.lookup_eq_none_iff] at hlookup
      exact absurd rfl (bne_iff_ne.mp (hlookup p hp))
    | some a =>
      obtain ⟨_, -, rfl, hvalues⟩ := exists_of_forall₂_right hcases (mem_of_lookup hlookup)
      exact hvalues o hmem code hcode

/-- Two instructions of a line. -/
def addSub : PredecodeTable where
  ops := [
    { op := ⟨"0011 nnnn mmmm 1100".toList, by decide⟩, plane := false, index := 0x21 },
    { op := ⟨"0011 nnnn mmmm 1000".toList, by decide⟩, plane := false, index := 0x12 }]
  disjoint := by
    simp only [← OpPattern.intersectsSets_logicMap]
    decide
  literal := by
    intro o ho _
    simp only [List.mem_cons, List.not_mem_nil, or_false] at ho
    rcases ho with rfl | rfl
    · exact ⟨['0', '0', '1', '1'], "nnnn mmmm 1100".toList, rfl, rfl, by simp⟩
    · exact ⟨['0', '0', '1', '1'], "nnnn mmmm 1000".toList, rfl, rfl, by simp⟩

theorem predecode_addSub : ∃ f, genPredecodeFn id addSub.ops = some f ∧
    ∀ o ∈ addSub.ops, o.plane = false → ∀ code, o.op.Matches code →
      evalPredecode f code = o.index :=
  predecode_exact addSub (exactOn_id _)

/-! ### System instructions -/

/-- A system instruction whose pattern has a literal first nibble. -/
def systemTable : PredecodeTable where
  ops := [{ op := ⟨"0000 0000 ---- ----".toList, by decide⟩, plane := true, index := 5 }]
  disjoint := List.Pairwise.nil
  literal := by
    intro o ho hplane
    rw [List.mem_singleton.mp ho] at hplane
    cases hplane

/-- The function leaves out the system instructions. -/
theorem system_not_predecoded :
    ∃ o ∈ systemTable.ops, o.op.LiteralNibble ∧ o.op.Matches 0 ∧ o.index.toNat < 255 ∧
      ∃ f, genPredecodeFn id systemTable.ops = some f ∧ evalPredecode f 0 ≠ o.index := by
  refine ⟨_, List.mem_singleton_self _, ⟨['0', '0', '0', '0'], "0000 ---- ----".toList, rfl, rfl,
    by simp⟩, ?_, by decide, [], rfl, by decide⟩
  intro n b h
  have lt : n < 16 := OpPattern.lt_of_char? h
  revert b
  decide +revert

end Gen

end JCore
