import JCore.Gen.Overlap

/-!
# The check for illegal delay slots

The function of the decoder package that is set for the instructions that may not stand in a
delay slot, as `util.clj` makes it. Its conditions are those of the instructions that write
the PC. They are reduced, relaxed as far as they touch no other instruction, and reduced again.

## Main definitions

* `illegalSlotImps`: the conditions
* `mergeConditions`: the ranges of bits that a condition is compared on
* `genIllegalSlotFn`, `evalIllegalSlot`: the generated function

## Main results

* `all_mergeConditions`: the comparisons of ranges are those of the bits
* `illegalSlot_exact`: the function is set for the instructions that write the PC, and for no
  others of the table
-/

namespace JCore

namespace Gen

/-! ### Opcodes as assignments -/

/-- The value of a bit, in the instruction word. -/
def codeBit (code : BitVec 16) : LogicVar → Bool
  | .i n => code.getLsbD n
  | _ => false

theorem OpPattern.sat_logicMap {op : OpPattern} {σ : LogicVar → Bool} :
    Sat σ op.logicMap ↔ ∀ n b, (op.char? n).bind charBit = some b → σ (.i n) = b := by
  constructor
  · exact fun h n b hn => h (.i n) b ((op.lookup_logicMap n).trans hn)
  · intro h v b hv
    obtain ⟨n, rfl, hn⟩ := mem_logicMap_iff.mp (mem_of_lookup hv)
    exact h n b hn

theorem OpPattern.sat_codeBit {op : OpPattern} {code : BitVec 16} :
    Sat (codeBit code) op.logicMap ↔ op.Matches code := sat_logicMap

/-- The opcode with the bits of an assignment. -/
def codeOfBits (σ : LogicVar → Bool) : BitVec 16 := bitsOf (fun n => σ (.i n)) 16

theorem OpPattern.matches_codeOfBits {op : OpPattern} {σ : LogicVar → Bool}
    (h : Sat σ op.logicMap) : op.Matches (codeOfBits σ) := by
  intro n b hn
  rw [codeOfBits, getLsbD_bitsOf, decide_eq_true (lt_of_char? hn), Bool.true_and]
  exact sat_logicMap.mp h n b hn

/-- Every pattern has an opcode. -/
theorem OpPattern.exists_matches (op : OpPattern) : ∃ code, op.Matches code := by
  refine ⟨codeOfBits fun v => (op.logicMap.lookup v).getD false, matches_codeOfBits fun v b hv => ?_⟩
  simp only [hv, Option.getD_some]

/-! ### The conditions -/

/-- What a slot writes from a bus: a keyword, or a register with the name in its metadata. -/
inductive Target where
  | kw (name : String)
  | reg (n : ℕ) (name : Option String)
  deriving DecidableEq, Repr

/-- `write-pc-op?` -/
def writePcOp : Option Target → Bool
  | some (.kw name) => ["pc", "pc-t", "pc-nt"].contains name
  | some (.reg _ name) => name == some "PC"
  | none => false

/-- A slot, with what it writes from the Z and the W bus. -/
structure TargetSlot where
  z : Option Target
  w : Option Target

/-- An instruction with its slots. The plane is set for system operations. -/
structure SlotOp where
  op : OpPattern
  plane : Bool
  slots : List TargetSlot

/-- Some slot writes the PC. -/
def SlotOp.writesPc (o : SlotOp) : Bool := o.slots.any fun s => writePcOp s.z || writePcOp s.w

/-- The two groups of `illegal-slot-imps`. -/
def writePcOps (ops : List SlotOp) : List SlotOp :=
  (ops.filter fun o => !o.plane).filter SlotOp.writesPc

def legalDelayOps (ops : List SlotOp) : List SlotOp :=
  (ops.filter fun o => !o.plane).filter fun o => !o.writesPc

/-- `illegal-slot-imps` -/
def illegalSlotImps (reduce : Minimiser) (ops : List SlotOp) : List LogicMap :=
  let constraintSets := (legalDelayOps ops).map fun o => o.op.logicMap
  reduceImplicants reduce
    ((reduceImplicants reduce ((writePcOps ops).map fun o => o.op.logicMap)).map fun m =>
      (relaxLogicSet m constraintSets).getD [])

/-! ### The comparisons -/

/-- The loop of `merge-conditions`, on the finished ranges, the current one, and a bit and the
next one. The last bit has no next one. -/
def mergeStep : List (ℕ × List Bool) × ℕ × List Bool → (ℕ × Bool) × Option (ℕ × Bool) →
    List (ℕ × List Bool) × ℕ × List Bool
  | (ranges, start, curRange), ((i, v), next) =>
    if next.map Prod.fst = some (i + 1) then (ranges, start, curRange ++ [v])
    else (ranges ++ [(start, curRange ++ [v])], (next.map Prod.fst).getD 0, [])

/-- `merge-conditions`: the values of successive bits as a list, with the first bit. -/
def mergeConditions (conds : List (ℕ × Bool)) : List (ℕ × List Bool) :=
  ((conds.zip (conds.tail.map some ++ [none])).foldl mergeStep
    ([], (conds.head?.map Prod.fst).getD 0, [])).1

/-- The bits of a slice, from the highest down. -/
def sliceDownto (code : BitVec 16) (a b : ℕ) : List Bool :=
  (List.range' b (a + 1 - b)).reverse.map code.getLsbD

/-- The comparison of a range: of one bit, or of a slice with a string. -/
def rangeEquals (code : BitVec 16) : ℕ × List Bool → Bool
  | (i, [v]) => code.getLsbD i == v
  | (i, vals) => sliceDownto code (i + vals.length - 1) i == vals.reverse

/-- `logic-map-to-bool`, of the bits of the instruction: the comparisons, all of which must
hold. For an empty map it is `nil`. -/
def logicMapToBool (m : LogicMap) : Option (List (ℕ × List Bool)) :=
  if m.isEmpty then none
  else
    let conds := m.filterMap fun p =>
      match p.1 with
      | .i n => some (n, p.2)
      | _ => none
    some (mergeConditions (conds.insertionSort fun a b => a.1 ≤ b.1)).reverse

/-- `gen-illegal-slot-fn`: the function, as the conditions for which it returns 1. There is
none if all arguments of `v-or` are `nil`, where it throws. -/
def genIllegalSlotFn (reduce : Minimiser) (ops : List SlotOp) :
    Option (List (List (ℕ × List Bool))) :=
  match (illegalSlotImps reduce ops).filterMap logicMapToBool with
  | [] => none
  | conds => some conds

/-- The value of the function. -/
def evalIllegalSlot (f : List (List (ℕ × List Bool))) (code : BitVec 16) : Bool :=
  f.any fun ranges => ranges.all (rangeEquals code)

/-- A range is equal to its values if each bit is. -/
theorem rangeEquals_iff (code : BitVec 16) (i : ℕ) (vals : List Bool) (h : vals ≠ []) :
    rangeEquals code (i, vals) = true ↔
      ∀ k v, vals[k]? = some v → code.getLsbD (i + k) = v := by
  have whole : sliceDownto code (i + vals.length - 1) i = vals.reverse ↔
      ∀ k v, vals[k]? = some v → code.getLsbD (i + k) = v := by
    have pos := List.length_pos_iff.mpr h
    have hlen : i + vals.length - 1 + 1 - i = vals.length := by omega
    rw [sliceDownto, hlen, List.map_reverse, List.reverse_inj, List.ext_getElem?_iff]
    constructor
    · intro eq k v hv
      have hk := (List.getElem?_eq_some_iff.mp hv).1
      have := eq k
      rw [hv, List.getElem?_map, List.getElem?_range' hk, Nat.one_mul] at this
      exact Option.some.inj this
    · intro eq k
      rw [List.getElem?_map]
      rcases Nat.lt_or_ge k vals.length with hk | hk
      · rw [List.getElem?_range' hk, Nat.one_mul, Option.map_some, List.getElem?_eq_getElem hk,
          eq k _ (List.getElem?_eq_getElem hk)]
      · rw [List.getElem?_eq_none (by rwa [List.length_range']), List.getElem?_eq_none hk]
        rfl
  -- a single bit is compared by itself
  match vals, h with
  | [v], _ =>
    rw [rangeEquals, beq_iff_eq]
    constructor
    · intro eq k w hk
      obtain rfl : k = 0 := by
        have := (List.getElem?_eq_some_iff.mp hk).1
        rw [List.length_singleton] at this
        omega
      exact eq.trans (Option.some.inj hk)
    · exact fun eq => eq 0 v rfl
  | v :: w :: vals, _ =>
    rw [rangeEquals]
    · exact beq_iff_eq.trans whole
    · exact nofun

/-- The values of successive bits, and of the one after them. -/
theorem forall_getElem?_append (code : BitVec 16) (start : ℕ) (cur : List Bool) (v : Bool) :
    (∀ k w, (cur ++ [v])[k]? = some w → code.getLsbD (start + k) = w) ↔
      (∀ k w, cur[k]? = some w → code.getLsbD (start + k) = w) ∧
        code.getLsbD (start + cur.length) = v := by
  constructor
  · refine fun h => ⟨fun k w hk => h k w ?_, h cur.length v ?_⟩
    · rw [List.getElem?_append_left (List.getElem?_eq_some_iff.mp hk).1, hk]
    · rw [List.getElem?_append_right (Nat.le_refl _), Nat.sub_self]
      rfl
  · rintro ⟨hcur, hv⟩ k w hk
    rcases Nat.lt_or_ge k cur.length with hlt | hge
    · rw [List.getElem?_append_left hlt] at hk
      exact hcur k w hk
    · rw [List.getElem?_append_right hge] at hk
      have hzero := (List.getElem?_eq_some_iff.mp hk).1
      rw [List.length_singleton] at hzero
      obtain rfl : k = cur.length := by omega
      rw [Nat.sub_self] at hk
      exact hv.trans (Option.some.inj hk)

/-- A range that is closed says what it did, and what the last bit says. -/
theorem all_append_range (code : BitVec 16) (ranges : List (ℕ × List Bool)) (start : ℕ)
    (cur : List Bool) (c : ℕ × Bool) (hstart : start + cur.length = c.1) :
    (ranges ++ [(start, cur ++ [c.2])]).all (rangeEquals code) = true ↔
      ranges.all (rangeEquals code) = true ∧
        (∀ k w, cur[k]? = some w → code.getLsbD (start + k) = w) ∧ code.getLsbD c.1 = c.2 := by
  rw [List.all_append, Bool.and_eq_true, List.all_cons, List.all_nil, Bool.and_true,
    rangeEquals_iff _ _ _ (List.append_ne_nil_of_right_ne_nil _ (List.cons_ne_nil _ _)),
    forall_getElem?_append, hstart]

/-- The loop keeps what the ranges and the bits that are left say of an opcode. -/
theorem all_foldl_mergeStep (code : BitVec 16) (c : ℕ × Bool) (conds : List (ℕ × Bool))
    (ranges : List (ℕ × List Bool)) (start : ℕ) (cur : List Bool)
    (hstart : start + cur.length = c.1) :
    ((((c :: conds).zip (conds.map some ++ [none])).foldl mergeStep (ranges, start, cur)).1.all
        (rangeEquals code) = true) ↔
      ranges.all (rangeEquals code) = true ∧
        (∀ k w, cur[k]? = some w → code.getLsbD (start + k) = w) ∧
          ∀ d ∈ c :: conds, code.getLsbD d.1 = d.2 := by
  induction conds generalizing c ranges start cur with
  | nil =>
    have last : mergeStep (ranges, start, cur) (c, none) =
        (ranges ++ [(start, cur ++ [c.2])], 0, []) := rfl
    rw [List.map_nil, List.nil_append, List.zip_cons_cons, List.foldl_cons, last, List.zip_nil_left,
      List.foldl_nil, all_append_range code ranges start cur c hstart, List.forall_mem_singleton]
  | cons d conds ih =>
    rw [List.map_cons, List.cons_append, List.zip_cons_cons, List.foldl_cons,
      List.forall_mem_cons (a := c)]
    by_cases next : d.1 = c.1 + 1
    · have inside : mergeStep (ranges, start, cur) (c, some d) = (ranges, start, cur ++ [c.2]) :=
        if_pos (congrArg some next)
      have hlen : start + (cur ++ [c.2]).length = d.1 := by
        rw [List.length_append, List.length_singleton, next, ← hstart, Nat.add_assoc]
      rw [inside, ih d ranges start _ hlen, forall_getElem?_append, hstart, and_assoc]
    · have closed : mergeStep (ranges, start, cur) (c, some d) =
          (ranges ++ [(start, cur ++ [c.2])], d.1, []) :=
        if_neg fun eq => next (Option.some.inj eq)
      have none : ∀ k w, ([] : List Bool)[k]? = some w → code.getLsbD (d.1 + k) = w := nofun
      rw [closed, ih d _ d.1 [] (Nat.add_zero _), all_append_range code ranges start cur c hstart,
        and_assoc, and_assoc, and_iff_right none]

/-- The ranges say what the bits do. -/
theorem all_mergeConditions (code : BitVec 16) (conds : List (ℕ × Bool)) :
    (mergeConditions conds).all (rangeEquals code) = true ↔
      ∀ c ∈ conds, code.getLsbD c.1 = c.2 := by
  cases conds with
  | nil => exact ⟨fun _ => nofun, fun _ => rfl⟩
  | cons c conds =>
    have none : ∀ k w, ([] : List Bool)[k]? = some w → code.getLsbD (c.1 + k) = w := nofun
    have loop := all_foldl_mergeStep code c conds [] c.1 [] (Nat.add_zero _)
    rwa [and_iff_right none, List.all_nil, and_iff_right rfl] at loop

theorem logicMapToBool_eq_none {m : LogicMap} : logicMapToBool m = none ↔ m = [] := by
  rw [logicMapToBool]
  split_ifs with hempty
  · exact iff_of_true rfl (List.isEmpty_iff.mp hempty)
  · exact iff_of_false nofun fun h => hempty (List.isEmpty_iff.mpr h)

/-- The comparisons of a condition hold if its bits have their values. -/
theorem all_logicMapToBool {m : LogicMap} {ranges : List (ℕ × List Bool)}
    (keys : ∀ p ∈ m, ∃ n, p.1 = .i n) (h : logicMapToBool m = some ranges) (code : BitVec 16) :
    ranges.all (rangeEquals code) = true ↔ (m.all fun p => codeBit code p.1 == p.2) = true := by
  rw [logicMapToBool] at h
  split_ifs at h with hempty
  rw [← Option.some.inj h, List.all_reverse, all_mergeConditions, List.all_eq_true]
  simp only [List.mem_insertionSort, List.mem_filterMap]
  constructor
  · intro holds p hp
    obtain ⟨n, hn⟩ := keys p hp
    refine beq_iff_eq.mpr ?_
    rw [hn]
    exact holds (n, p.2) ⟨p, hp, by rw [hn]⟩
  · rintro holds c ⟨p, hp, hc⟩
    obtain ⟨n, hn⟩ := keys p hp
    rw [hn] at hc
    cases hc
    have := eq_of_beq (holds p hp)
    rwa [hn] at this

/-! ### The generated function -/

/-- The instructions of a table, of which no two normal ones share an opcode. -/
structure SlotTable where
  ops : List SlotOp
  disjoint : (ops.filter fun o => !o.plane).Pairwise fun o o' =>
    ¬ ∃ code, o.op.Matches code ∧ o'.op.Matches code

theorem mem_writePcOps {ops : List SlotOp} {o : SlotOp} :
    o ∈ writePcOps ops ↔ o ∈ ops ∧ o.plane = false ∧ o.writesPc = true := by
  simp only [writePcOps, List.mem_filter, Bool.not_eq_true', and_assoc]

theorem mem_legalDelayOps {ops : List SlotOp} {o : SlotOp} :
    o ∈ legalDelayOps ops ↔ o ∈ ops ∧ o.plane = false ∧ o.writesPc = false := by
  simp only [legalDelayOps, List.mem_filter, Bool.not_eq_true', and_assoc]

/-- The two groups share no opcode. -/
theorem SlotTable.apart (table : SlotTable) {o o' : SlotOp} (ho : o ∈ writePcOps table.ops)
    (ho' : o' ∈ legalDelayOps table.ops) (code : BitVec 16) :
    ¬ (o.op.Matches code ∧ o'.op.Matches code) := by
  intro both
  have ne : o ≠ o' := by
    rintro rfl
    exact Bool.false_ne_true
      ((mem_legalDelayOps.mp ho').2.2.symm.trans (mem_writePcOps.mp ho).2.2)
  have symm : Std.Symm fun o o' : SlotOp => ¬ ∃ code, o.op.Matches code ∧ o'.op.Matches code :=
    ⟨fun _ _ h h' => h (h'.imp fun _ => And.symm)⟩
  exact table.disjoint.forall (List.mem_filter.mp ho).1 (List.mem_filter.mp ho').1 ne ⟨code, both⟩

section Relaxed

variable {reduce : Minimiser} (exact : ExactReduction reduce) (table : SlotTable)

include exact

/-- The reduced conditions of the instructions that write the PC touch no others. -/
theorem overlapsSome_reduced {m : LogicMap}
    (hm : m ∈ reduceImplicants reduce ((writePcOps table.ops).map fun o => o.op.logicMap)) :
    overlapsSome ((legalDelayOps table.ops).map fun o => o.op.logicMap) m = false := by
  refine Bool.eq_false_iff.mpr fun overlap => ?_
  obtain ⟨c, hc, intersects⟩ := List.any_eq_true.mp overlap
  obtain ⟨o', ho', rfl⟩ := List.mem_map.mp hc
  have nodup := nodup_reduceImplicants hm
  obtain ⟨σ, sat, sat'⟩ := (intersectsSets_iff_exists_sat (Consistent.of_nodup nodup)
    o'.op.consistent_logicMap).mp intersects
  obtain ⟨_, hmap, satWriter⟩ := (exists_all_reduceImplicants exact _ σ).mp
    ⟨m, hm, (all_iff_sat nodup).mpr sat⟩
  obtain ⟨o, ho, rfl⟩ := List.mem_map.mp hmap
  exact table.apart ho ho' (codeOfBits σ)
    ⟨OpPattern.matches_codeOfBits satWriter, OpPattern.matches_codeOfBits sat'⟩

/-- What the relaxation leaves of a reduced condition. -/
theorem relaxed_spec {m : LogicMap}
    (hm : m ∈ reduceImplicants reduce ((writePcOps table.ops).map fun o => o.op.logicMap)) :
    ∃ r, relaxLogicSet m ((legalDelayOps table.ops).map fun o => o.op.logicMap) = some r ∧
      (∀ p ∈ r, p ∈ m) ∧
        ∀ o ∈ legalDelayOps table.ops, intersectsSets r o.op.logicMap = false := by
  obtain ⟨r, hr, sub, free⟩ := relaxLogicSet_spec (overlapsSome_reduced exact table hm)
  refine ⟨r, hr, sub, fun o ho => ?_⟩
  exact eq_false_of_ne_true (List.any_eq_false.mp free _ (List.mem_map_of_mem ho))

/-- The conditions cover the opcodes of the instructions that write the PC. -/
theorem exists_imp_of_writesPc {o : SlotOp} (ho : o ∈ writePcOps table.ops) {code : BitVec 16}
    (hcode : o.op.Matches code) :
    ∃ m ∈ illegalSlotImps reduce table.ops, (m.all fun p => codeBit code p.1 == p.2) = true := by
  obtain ⟨m, hm, all⟩ := (exists_all_reduceImplicants exact _ (codeBit code)).mpr
    ⟨o.op.logicMap, List.mem_map_of_mem (f := fun o => o.op.logicMap) ho,
      OpPattern.sat_codeBit.mpr hcode⟩
  obtain ⟨r, hr, sub, -⟩ := relaxed_spec exact table hm
  refine (exists_all_reduceImplicants exact _ (codeBit code)).mpr
    ⟨r, List.mem_map.mpr ⟨m, hm, by rw [hr, Option.getD_some]⟩, fun v b hv => ?_⟩
  exact eq_of_beq (List.all_eq_true.mp all _ (sub _ (mem_of_lookup hv)))

/-- The conditions cover no opcode of another normal instruction. -/
theorem not_exists_imp_of_legal {o : SlotOp} (ho : o ∈ legalDelayOps table.ops)
    {code : BitVec 16} (hcode : o.op.Matches code) :
    ¬ ∃ m ∈ illegalSlotImps reduce table.ops,
      (m.all fun p => codeBit code p.1 == p.2) = true := by
  intro covered
  obtain ⟨_, hrelaxed, sat⟩ := (exists_all_reduceImplicants exact _ (codeBit code)).mp covered
  obtain ⟨m, hm, rfl⟩ := List.mem_map.mp hrelaxed
  obtain ⟨r, hr, sub, apart⟩ := relaxed_spec exact table hm
  rw [hr, Option.getD_some] at sat
  have consistent := (Consistent.of_nodup (nodup_reduceImplicants hm)).subset sub
  have intersects := (intersectsSets_iff_exists_sat consistent o.op.consistent_logicMap).mpr
    ⟨codeBit code, sat, OpPattern.sat_codeBit.mpr hcode⟩
  exact Bool.false_ne_true ((apart o ho).symm.trans intersects)

/-- The conditions are on bits of the instruction. -/
theorem key_of_mem_illegalSlotImps {m : LogicMap} (hm : m ∈ illegalSlotImps reduce table.ops)
    {p : LogicVar × Bool} (hp : p ∈ m) : ∃ n, p.1 = .i n := by
  obtain ⟨_, hrelaxed, q, hq, hkey⟩ := exists_key_of_mem_reduceImplicants hm hp
  obtain ⟨m', hm', rfl⟩ := List.mem_map.mp hrelaxed
  obtain ⟨r, hr, sub, -⟩ := relaxed_spec exact table hm'
  rw [hr, Option.getD_some] at hq
  obtain ⟨_, hmap, q', hq', hkey'⟩ := exists_key_of_mem_reduceImplicants hm' (sub q hq)
  obtain ⟨o, -, rfl⟩ := List.mem_map.mp hmap
  obtain ⟨n, hn, -⟩ := OpPattern.mem_logicMap_iff.mp hq'
  exact ⟨n, hkey.symm.trans (hkey'.symm.trans hn)⟩

/-- The function evaluates the conditions that are not empty. -/
theorem evalIllegalSlot_iff {f : List (List (ℕ × List Bool))}
    (hf : genIllegalSlotFn reduce table.ops = some f) (code : BitVec 16) :
    evalIllegalSlot f code = true ↔ ∃ m ∈ illegalSlotImps reduce table.ops, m ≠ [] ∧
      (m.all fun p => codeBit code p.1 == p.2) = true := by
  have hconds : f = (illegalSlotImps reduce table.ops).filterMap logicMapToBool := by
    rw [genIllegalSlotFn] at hf
    split at hf
    · cases hf
    · exact (Option.some.inj hf).symm
  rw [evalIllegalSlot, List.any_eq_true, hconds]
  simp only [List.mem_filterMap]
  constructor
  · rintro ⟨ranges, ⟨m, hm, hranges⟩, all⟩
    refine ⟨m, hm, fun hempty => ?_, ?_⟩
    · rw [logicMapToBool_eq_none.mpr hempty] at hranges
      cases hranges
    · exact (all_logicMapToBool (fun p => key_of_mem_illegalSlotImps exact table hm) hranges
        code).mp all
  · rintro ⟨m, hm, hne, all⟩
    obtain ⟨ranges, hranges⟩ := Option.ne_none_iff_exists'.mp (mt logicMapToBool_eq_none.mp hne)
    exact ⟨ranges, ⟨m, hm, hranges⟩, (all_logicMapToBool
      (fun p => key_of_mem_illegalSlotImps exact table hm) hranges code).mpr all⟩

/-- Of the conditions of a table with another instruction none is empty. -/
theorem ne_nil_of_mem_illegalSlotImps {o : SlotOp} (ho : o ∈ legalDelayOps table.ops)
    {m : LogicMap} (hm : m ∈ illegalSlotImps reduce table.ops) : m ≠ [] := by
  rintro rfl
  obtain ⟨code, hcode⟩ := o.op.exists_matches
  exact not_exists_imp_of_legal exact table ho hcode ⟨[], hm, rfl⟩

omit exact in
/-- Without another instruction all conditions are empty. -/
theorem eq_nil_of_mem_illegalSlotImps (hlegal : legalDelayOps table.ops = [])
    {m : LogicMap} (hm : m ∈ illegalSlotImps reduce table.ops) : m = [] := by
  rw [List.eq_nil_iff_forall_not_mem]
  intro p hp
  obtain ⟨_, hrelaxed, q, hq, -⟩ := exists_key_of_mem_reduceImplicants hm hp
  obtain ⟨m', hm', rfl⟩ := List.mem_map.mp hrelaxed
  rw [hlegal, List.map_nil, relaxLogicSet_nil] at hq
  exact List.not_mem_nil hq

/-- There is a function for the tables that have both kinds of instructions. -/
theorem exists_genIllegalSlotFn_iff :
    (∃ f, genIllegalSlotFn reduce table.ops = some f) ↔
      writePcOps table.ops ≠ [] ∧ legalDelayOps table.ops ≠ [] := by
  -- there is a function if some implicant is not empty
  have found : (∃ f, genIllegalSlotFn reduce table.ops = some f) ↔
      ∃ m ∈ illegalSlotImps reduce table.ops, m ≠ [] := by
    have nil : (illegalSlotImps reduce table.ops).filterMap logicMapToBool = [] ↔
        ∀ m ∈ illegalSlotImps reduce table.ops, m = [] := by
      rw [List.filterMap_eq_nil_iff]
      exact forall₂_congr fun m _ => logicMapToBool_eq_none
    rw [genIllegalSlotFn]
    split
    next h => exact iff_of_false nofun fun ⟨m, hm, hne⟩ => hne (nil.mp h m hm)
    next h =>
      refine iff_of_true ⟨_, rfl⟩ ?_
      by_contra! all
      exact h (nil.mpr all)
  rw [found]
  constructor
  · rintro ⟨m, hm, hne⟩
    constructor
    · intro hwriters
      obtain ⟨p, hp⟩ := List.exists_mem_of_ne_nil m hne
      obtain ⟨_, hrelaxed, -⟩ := exists_key_of_mem_reduceImplicants hm hp
      obtain ⟨m', hm', -⟩ := List.mem_map.mp hrelaxed
      rw [hwriters] at hm'
      exact List.not_mem_nil hm'
    · exact fun hlegal => hne (eq_nil_of_mem_illegalSlotImps table hlegal hm)
  -- an implicant covers a line that writes the PC, and leaves out a legal one
  · rintro ⟨hwriters, hlegal⟩
    obtain ⟨o, ho⟩ := List.exists_mem_of_ne_nil _ hwriters
    obtain ⟨o', ho'⟩ := List.exists_mem_of_ne_nil _ hlegal
    obtain ⟨code, hcode⟩ := o.op.exists_matches
    obtain ⟨m, hm, -⟩ := exists_imp_of_writesPc exact table ho hcode
    exact ⟨m, hm, ne_nil_of_mem_illegalSlotImps exact table ho' hm⟩

end Relaxed

/-- The generated function is set for the opcodes of the normal instructions that write the PC,
and for those of no others. The generator makes one for the tables that have both. -/
theorem illegalSlot_exact {reduce : Minimiser} (exact : ExactReduction reduce)
    (table : SlotTable) :
    ((∃ f, genIllegalSlotFn reduce table.ops = some f) ↔
      (∃ o ∈ table.ops, o.plane = false ∧ o.writesPc = true) ∧
        ∃ o ∈ table.ops, o.plane = false ∧ o.writesPc = false) ∧
    ∀ f, genIllegalSlotFn reduce table.ops = some f → ∀ o ∈ table.ops, o.plane = false →
      ∀ code, o.op.Matches code → evalIllegalSlot f code = o.writesPc := by
  constructor
  · simp only [exists_genIllegalSlotFn_iff exact, ne_eq, List.eq_nil_iff_forall_not_mem,
      not_forall, not_not, mem_writePcOps, mem_legalDelayOps]
  · intro f hf o ho plane code hcode
    obtain ⟨-, hlegal⟩ := (exists_genIllegalSlotFn_iff exact table).mp ⟨f, hf⟩
    obtain ⟨o', ho'⟩ := List.exists_mem_of_ne_nil _ hlegal
    cases writes : o.writesPc with
    | false =>
      rw [Bool.eq_false_iff, ne_eq, evalIllegalSlot_iff exact table hf]
      rintro ⟨m, hm, -, all⟩
      exact not_exists_imp_of_legal exact table (mem_legalDelayOps.mpr ⟨ho, plane, writes⟩) hcode
        ⟨m, hm, all⟩
    | true =>
      rw [evalIllegalSlot_iff exact table hf]
      obtain ⟨m, hm, all⟩ := exists_imp_of_writesPc exact table
        (mem_writePcOps.mpr ⟨ho, plane, writes⟩) hcode
      exact ⟨m, hm, ne_nil_of_mem_illegalSlotImps exact table ho' hm, all⟩

/-- A branch and an instruction that may stand in its slot. -/
def branchTable : SlotTable where
  ops := [
    { op := ⟨"1010 dddd dddd dddd".toList, by decide⟩, plane := false
      slots := [⟨some (.kw "pc"), none⟩, ⟨none, none⟩] },
    { op := ⟨"0000 0000 0000 1001".toList, by decide⟩, plane := false
      slots := [⟨none, none⟩] }]
  disjoint := by
    simp only [← OpPattern.intersectsSets_logicMap]
    decide

theorem branchTable_exact :
    ((∃ f, genIllegalSlotFn id branchTable.ops = some f) ↔
      (∃ o ∈ branchTable.ops, o.plane = false ∧ o.writesPc = true) ∧
        ∃ o ∈ branchTable.ops, o.plane = false ∧ o.writesPc = false) ∧
    ∀ f, genIllegalSlotFn id branchTable.ops = some f → ∀ o ∈ branchTable.ops, o.plane = false →
      ∀ code, o.op.Matches code → evalIllegalSlot f code = o.writesPc :=
  illegalSlot_exact exactReduction_id branchTable

end Gen

end JCore
