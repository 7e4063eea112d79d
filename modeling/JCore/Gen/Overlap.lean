import JCore.Gen.Conditions
import JCore.Pack.Shifter

/-!
# Overlapping patterns

The test of `logic.clj` whether two conditions overlap, on the sets of their entries, the
relaxation of a condition that must not overlap others, and the check of `parser.clj` that no
two instructions of the table do.

## Main definitions

* `intersectsSets`, `relaxLogicSet`: the functions on sets of entries
* `overlaps`: the instructions that the check reports
* `OpPattern.Matches`: the opcodes of a pattern

## Main results

* `intersectsSets_iff`: two conditions overlap if they agree on the bits that both have
* `relaxLogicSet_spec`: what the relaxation keeps
* `overlaps_exact`: the check finds the instructions of one plane that share an opcode
-/

namespace JCore

namespace Gen

section Sets

variable {K V : Type*} [DecidableEq K] [DecidableEq V]

/-- `set/difference` -/
def difference (a b : List (K × V)) : List (K × V) := a.filter fun p => !b.contains p

/-- `intersects-sets?`: no bit is in what only one set has and in what only the other has. -/
def intersectsSets (a b : List (K × V)) : Bool :=
  ((difference a b).map Prod.fst).all fun k => !((difference b a).map Prod.fst).contains k

/-- `combo/combinations`, in the order of the list. -/
def combinations {α : Type*} : ℕ → List α → List (List α)
  | 0, _ => [[]]
  | _ + 1, [] => []
  | n + 1, a :: l => (combinations n l).map (a :: ·) ++ combinations (n + 1) l

/-- `combo/subsets`, the smaller ones first. -/
def subsets {α : Type*} (l : List α) : List (List α) :=
  (List.range (l.length + 1)).flatMap fun n => combinations n l

/-- `disj` of several entries. -/
def disj (a : List (K × V)) (ps : List (K × V)) : List (K × V) := a.filter fun p => !ps.contains p

/-- Some constraint overlaps. -/
def overlapsSome (constraintSets : List (List (K × V))) (a : List (K × V)) : Bool :=
  constraintSets.any fun c => intersectsSets a c

/-- `relax-logic-set`: the set without as many entries as possible. Candidates are made from
the entries that may be left out one at a time. -/
def relaxLogicSet (logicSet : List (K × V)) (constraintSets : List (List (K × V))) :
    Option (List (K × V)) :=
  let looseBits := logicSet.filter fun bit => !overlapsSome constraintSets (disj logicSet [bit])
  ((((subsets looseBits).map (disj logicSet)).filter fun subset =>
    !overlapsSome constraintSets subset).insertionSort fun a b => a.length ≤ b.length).head?

/-- No bit has two values. -/
def Consistent (a : List (K × V)) : Prop := ∀ k v w, (k, v) ∈ a → (k, w) ∈ a → v = w

omit [DecidableEq K] [DecidableEq V] in
theorem Consistent.of_nodup {a : List (K × V)} (h : (a.map Prod.fst).Nodup) : Consistent a :=
  fun _ _ _ hv hw => congrArg Prod.snd (List.inj_on_of_nodup_map h hv hw rfl)

omit [DecidableEq K] [DecidableEq V] in
theorem Consistent.subset {a b : List (K × V)} (h : Consistent b) (sub : ∀ p ∈ a, p ∈ b) :
    Consistent a :=
  fun k v w hv hw => h k v w (sub _ hv) (sub _ hw)

omit [DecidableEq V] in
theorem Consistent.lookup_of_mem {a : List (K × V)} (h : Consistent a) {k : K} {v : V}
    (hv : (k, v) ∈ a) : a.lookup k = some v := by
  cases hk : a.lookup k with
  | none =>
    rw [List.lookup_eq_none_iff] at hk
    exact absurd rfl (bne_iff_ne.mp (hk _ hv))
  | some w =>
    obtain ⟨l₁, l₂, rfl, -⟩ := List.lookup_eq_some_iff.mp hk
    exact congrArg some (h k w v (List.mem_append_right _ List.mem_cons_self) hv)

theorem Consistent.sat_iff {a : List (K × Bool)} (h : Consistent a) {σ : K → Bool} :
    Sat σ a ↔ ∀ k v, (k, v) ∈ a → σ k = v :=
  ⟨fun sat k v hv => sat k v (h.lookup_of_mem hv), fun all k v hv => all k v (mem_of_lookup hv)⟩

/-- Two conditions overlap if and only if they agree on the bits that both have. -/
theorem intersectsSets_iff {a b : List (K × V)} (ha : Consistent a) (hb : Consistent b) :
    intersectsSets a b = true ↔ ∀ k v w, (k, v) ∈ a → (k, w) ∈ b → v = w := by
  simp only [intersectsSets, difference, List.all_eq_true, List.mem_map, List.mem_filter,
    Bool.not_eq_true', List.contains_eq_mem, decide_eq_false_iff_not, Prod.exists,
    exists_and_right, exists_eq_right]
  constructor
  · intro h k v w hv hw
    by_contra ne
    refine h k ⟨v, hv, fun hv' => ne (hb k v w hv' hw)⟩ ⟨w, hw, fun hw' => ne (ha k v w hv hw')⟩
  · rintro h k ⟨v, hv, hv'⟩ ⟨w, hw, -⟩
    rw [h k v w hv hw] at hv'
    exact hv' hw

/-- Two conditions overlap if and only if an assignment satisfies both. -/
theorem intersectsSets_iff_exists_sat {a b : List (K × Bool)} (ha : Consistent a)
    (hb : Consistent b) :
    intersectsSets a b = true ↔ ∃ σ : K → Bool, Sat σ a ∧ Sat σ b := by
  rw [intersectsSets_iff ha hb]
  constructor
  · intro agree
    refine ⟨fun k => ((a.lookup k).or (b.lookup k)).getD false, fun k v hv => ?_, fun k w hw => ?_⟩
    · beta_reduce
      rw [hv]
      rfl
    · beta_reduce
      rcases hv : a.lookup k with _ | v
      · rw [hw]
        rfl
      · exact agree k v w (mem_of_lookup hv) (mem_of_lookup hw)
  · rintro ⟨σ, hsat, hsat'⟩ k v w hv hw
    exact (hsat k v (ha.lookup_of_mem hv)).symm.trans (hsat' k w (hb.lookup_of_mem hw))

theorem mem_combinations {α : Type*} {s l : List α} (h : s.Sublist l) :
    s ∈ combinations s.length l := by
  induction h with
  | slnil => exact List.mem_singleton_self _
  | @cons s l a h ih =>
    cases s with
    | nil => exact List.mem_singleton_self _
    | cons b s => exact List.mem_append_right _ ih
  | cons_cons a h ih => exact List.mem_append_left _ (List.mem_map_of_mem ih)

/-- The subsets of a list are its sublists. -/
theorem mem_subsets {α : Type*} {s l : List α} (h : s.Sublist l) : s ∈ subsets l := by
  refine List.mem_flatMap.mpr ⟨s.length, ?_, mem_combinations h⟩
  exact List.mem_range.mpr (Nat.lt_succ_of_le h.length_le)

/-- `sort-by count` and `first`: a shortest one. -/
theorem exists_shortest {α : Type*} {candidates : List (List α)} (ne : candidates ≠ []) :
    ∃ r ∈ candidates,
      (candidates.insertionSort fun a b => a.length ≤ b.length).head? = some r ∧
        ∀ s ∈ candidates, r.length ≤ s.length := by
  have sorted := List.pairwise_insertionSort (fun a b : List α => a.length ≤ b.length) candidates
  have mem (s : List α) : s ∈ candidates.insertionSort (fun a b => a.length ≤ b.length) ↔
      s ∈ candidates := List.mem_insertionSort _
  cases hsort : candidates.insertionSort fun a b => a.length ≤ b.length with
  | nil =>
    rw [hsort] at mem
    exact absurd (List.eq_nil_iff_forall_not_mem.mpr fun s hs => List.not_mem_nil ((mem s).mpr hs)) ne
  | cons r rest =>
    rw [hsort] at mem sorted
    refine ⟨r, (mem r).mp List.mem_cons_self, rfl, fun s hs => ?_⟩
    rcases List.mem_cons.mp ((mem s).mpr hs) with rfl | hrest
    · exact le_rfl
    · exact (List.pairwise_cons.mp sorted).1 s hrest

theorem disj_nil (a : List (K × V)) : disj a [] = a := by simp [disj]

/-- What is left of a set when some of its loose entries are taken out, as long as it overlaps
no constraint. -/
def candidates (logicSet : List (K × V)) (constraintSets : List (List (K × V))) :
    List (List (K × V)) :=
  let looseBits := logicSet.filter fun bit => !overlapsSome constraintSets (disj logicSet [bit])
  ((subsets looseBits).map (disj logicSet)).filter fun subset => !overlapsSome constraintSets subset

theorem self_mem_candidates {logicSet : List (K × V)} {constraintSets : List (List (K × V))}
    (h : overlapsSome constraintSets logicSet = false) :
    logicSet ∈ candidates logicSet constraintSets := by
  refine List.mem_filter.mpr ⟨?_, by rw [h]; rfl⟩
  exact List.mem_map.mpr ⟨[], mem_subsets (List.nil_sublist _), disj_nil _⟩

/-- The result is the shortest candidate. -/
theorem exists_relaxLogicSet {logicSet : List (K × V)} {constraintSets : List (List (K × V))}
    (h : overlapsSome constraintSets logicSet = false) :
    ∃ r, relaxLogicSet logicSet constraintSets = some r ∧ r.Sublist logicSet ∧
      overlapsSome constraintSets r = false ∧
        ∀ s ∈ candidates logicSet constraintSets, r.length ≤ s.length := by
  obtain ⟨r, hr, hfirst, shortest⟩ := exists_shortest (List.ne_nil_of_mem (self_mem_candidates h))
  obtain ⟨hmem, free⟩ := List.mem_filter.mp hr
  obtain ⟨bits, -, rfl⟩ := List.mem_map.mp hmem
  exact ⟨_, hfirst, List.filter_sublist, by simpa using free, shortest⟩

/-- A set that overlaps no constraint is relaxed to a part of it that overlaps none. -/
theorem relaxLogicSet_spec {logicSet : List (K × V)} {constraintSets : List (List (K × V))}
    (h : overlapsSome constraintSets logicSet = false) :
    ∃ r, relaxLogicSet logicSet constraintSets = some r ∧ (∀ p ∈ r, p ∈ logicSet) ∧
      overlapsSome constraintSets r = false := by
  obtain ⟨r, hr, sublist, free, -⟩ := exists_relaxLogicSet h
  exact ⟨r, hr, fun p hp => sublist.subset hp, free⟩

/-- Without constraints nothing is left of a set. -/
theorem relaxLogicSet_nil (logicSet : List (K × V)) : relaxLogicSet logicSet [] = some [] := by
  obtain ⟨r, hr, -, -, shortest⟩ := @exists_relaxLogicSet K V _ _ logicSet [] rfl
  have loose : logicSet.filter (fun bit => !overlapsSome [] (disj logicSet [bit])) = logicSet :=
    List.filter_eq_self.mpr fun _ _ => rfl
  have empty : disj logicSet logicSet = [] := by simp [disj]
  have mem : [] ∈ candidates logicSet [] := by
    refine List.mem_filter.mpr ⟨List.mem_map.mpr ⟨logicSet, ?_, empty⟩, rfl⟩
    rw [loose]
    exact mem_subsets (List.Sublist.refl _)
  rw [hr, List.length_eq_zero_iff.mp (Nat.le_zero.mp (shortest [] mem))]

end Sets

/-! ### Patterns -/

/-- A pattern for the 16 bits of an opcode. -/
structure OpPattern where
  chars : List Char
  width : (chars.filter fun c => c != ' ').length = 16

namespace OpPattern

/-- The character for a bit; `std_match` reads the pattern from the highest bit down. -/
def char? (op : OpPattern) (n : ℕ) : Option Char := (op.chars.filter fun c => c != ' ').reverse[n]?

/-- The opcode has the bits that the pattern asks for. -/
def Matches (op : OpPattern) (code : BitVec 16) : Prop :=
  ∀ n b, (op.char? n).bind charBit = some b → code.getLsbD n = b

/-- The condition for the pattern. -/
def logicMap (op : OpPattern) : LogicMap := strToLogicMap .i op.chars

theorem lookup_logicMap (op : OpPattern) (n : ℕ) :
    op.logicMap.lookup (.i n) = (op.char? n).bind charBit :=
  lookup_strToLogicMap (fun _ _ => LogicVar.i.inj) op.chars n

theorem mem_logicMap_iff {op : OpPattern} {k : LogicVar} {v : Bool} :
    (k, v) ∈ op.logicMap ↔ ∃ n, k = .i n ∧ (op.char? n).bind charBit = some v := by
  simp only [logicMap, strToLogicMap, List.mem_filterMap, Prod.exists, Option.map_eq_some_iff,
    List.mem_zipIdx_iff_getElem?, Prod.mk.injEq, Option.bind_eq_some_iff, char?]
  constructor
  · rintro ⟨c, n, hc, b, hb, rfl, rfl⟩
    exact ⟨n, rfl, c, hc, hb⟩
  · rintro ⟨n, rfl, c, hc, hb⟩
    exact ⟨c, n, hc, v, hb, rfl, rfl⟩

theorem consistent_logicMap (op : OpPattern) : Consistent op.logicMap := by
  intro k v w hv hw
  obtain ⟨n, rfl, hn⟩ := mem_logicMap_iff.mp hv
  obtain ⟨m, h, hm⟩ := mem_logicMap_iff.mp hw
  rw [LogicVar.i.injEq] at h
  rw [← h, hn] at hm
  exact Option.some.inj hm

theorem lt_of_char? {op : OpPattern} {n : ℕ} {b : Bool} (h : (op.char? n).bind charBit = some b) :
    n < 16 := by
  obtain ⟨c, hc, -⟩ := Option.bind_eq_some_iff.mp h
  have hlt := (List.getElem?_eq_some_iff.mp hc).1
  rwa [List.length_reverse, op.width] at hlt

/-- The test on the conditions of two patterns finds out whether an opcode matches both. -/
theorem intersectsSets_logicMap (op op' : OpPattern) :
    intersectsSets op.logicMap op'.logicMap = true ↔
      ∃ code, op.Matches code ∧ op'.Matches code := by
  rw [intersectsSets_iff op.consistent_logicMap op'.consistent_logicMap]
  constructor
  · intro agree
    refine ⟨bitsOf (fun n => (((op.char? n).bind charBit).or
      ((op'.char? n).bind charBit)).getD false) 16, ?_, ?_⟩
    · intro n b h
      rw [getLsbD_bitsOf, decide_eq_true (lt_of_char? h), h]
      rfl
    · intro n b h
      rw [getLsbD_bitsOf, decide_eq_true (lt_of_char? h), h]
      cases h' : (op.char? n).bind charBit with
      | none => rfl
      | some b' =>
        exact agree (.i n) b' b (mem_logicMap_iff.mpr ⟨n, rfl, h'⟩)
          (mem_logicMap_iff.mpr ⟨n, rfl, h⟩)
  · rintro ⟨code, hcode, hcode'⟩ k v w hv hw
    obtain ⟨n, rfl, hn⟩ := mem_logicMap_iff.mp hv
    obtain ⟨m, h, hm⟩ := mem_logicMap_iff.mp hw
    rw [LogicVar.i.injEq] at h
    rw [← h] at hm
    exact (hcode n v hn).symm.trans (hcode' n w hm)

end OpPattern

/-! ### The check of the table -/

/-- An instruction as the check sees it, with the line of its first slot. -/
structure CheckedOp where
  name : String
  op : OpPattern
  line : ℕ
  plane : Bool

namespace CheckedOp

/-- The condition for an instruction, with its plane. -/
def logic (o : CheckedOp) : List (LogicVar × Bool) := (.p 0, o.plane) :: o.op.logicMap

theorem consistent_logic (o : CheckedOp) : Consistent o.logic := by
  intro k v w hv hw
  rcases List.mem_cons.mp hv with hv | hv <;> rcases List.mem_cons.mp hw with hw | hw
  · rw [Prod.mk.injEq] at hv hw
    exact hv.2.trans hw.2.symm
  · obtain ⟨n, rfl, -⟩ := OpPattern.mem_logicMap_iff.mp hw
    cases hv
  · obtain ⟨n, rfl, -⟩ := OpPattern.mem_logicMap_iff.mp hv
    cases hw
  · exact o.op.consistent_logicMap k v w hv hw

/-- Two instructions overlap: they are on one plane, and an opcode matches both. -/
def Overlap (o o' : CheckedOp) : Prop :=
  o.plane = o'.plane ∧ ∃ code, o.op.Matches code ∧ o'.op.Matches code

theorem Overlap.symm {o o' : CheckedOp} (h : Overlap o o') : Overlap o' o :=
  ⟨h.1.symm, h.2.imp fun _ => And.symm⟩

theorem intersectsSets_logic (o o' : CheckedOp) :
    intersectsSets o.logic o'.logic = true ↔ Overlap o o' := by
  rw [intersectsSets_iff o.consistent_logic o'.consistent_logic, Overlap,
    ← OpPattern.intersectsSets_logicMap,
    intersectsSets_iff o.op.consistent_logicMap o'.op.consistent_logicMap]
  constructor
  · intro h
    exact ⟨h (.p 0) _ _ List.mem_cons_self List.mem_cons_self,
      fun k v w hv hw => h k v w (List.mem_cons_of_mem _ hv) (List.mem_cons_of_mem _ hw)⟩
  · rintro ⟨plane, h⟩ k v w hv hw
    rcases List.mem_cons.mp hv with hv | hv <;> rcases List.mem_cons.mp hw with hw | hw
    · rw [Prod.mk.injEq] at hv hw
      rw [hv.2, hw.2, plane]
    · obtain ⟨n, rfl, -⟩ := OpPattern.mem_logicMap_iff.mp hw
      cases hv
    · obtain ⟨n, rfl, -⟩ := OpPattern.mem_logicMap_iff.mp hv
      cases hw
    · exact h k v w hv hw

end CheckedOp

/-- The loop of `sanity-check` over the set of the instructions: the lines and names of those
that overlap others after them, with the lines of the others. -/
def overlaps : List CheckedOp → List (ℕ × String × List ℕ)
  | [] => []
  | op :: rest =>
    let found := rest.filter fun o => intersectsSets op.logic o.logic
    if found.isEmpty then overlaps rest
    else
      (op.line, op.name, (found.map CheckedOp.line).insertionSort (· ≤ ·)) :: overlaps rest

theorem overlaps_ne_nil (l : List CheckedOp) :
    overlaps l ≠ [] ↔ ¬ l.Pairwise fun o o' => ¬ CheckedOp.Overlap o o' := by
  induction l with
  | nil => simp [overlaps]
  | cons op rest ih =>
    rw [overlaps, List.pairwise_cons, not_and_or]
    split_ifs with h
    · rw [List.isEmpty_iff, List.filter_eq_nil_iff] at h
      rw [ih]
      refine ⟨.inr, fun h' => h'.resolve_left (not_not_intro fun o ho hoverlap => ?_)⟩
      exact h o ho ((CheckedOp.intersectsSets_logic op o).mpr hoverlap)
    · refine ⟨fun _ => .inl fun none => h ?_, fun _ => List.cons_ne_nil _ _⟩
      rw [List.isEmpty_iff, List.filter_eq_nil_iff]
      exact fun o ho hi => none o ho ((CheckedOp.intersectsSets_logic op o).mp hi)

/-- The instructions of a table, each on lines of its own. -/
structure InstructionTable where
  ops : List CheckedOp
  lines : (ops.map CheckedOp.line).Nodup

/-- The check of the set of the instructions, in whichever order it is listed, reports an
overlap if and only if two instructions of one plane share an opcode. -/
theorem overlaps_exact (table : InstructionTable) (set : List CheckedOp) (nodup : set.Nodup)
    (mem : ∀ o, o ∈ set ↔ o ∈ table.ops) : overlaps set ≠ [] ↔
      ∃ i j, ∃ hi : i < table.ops.length, ∃ hj : j < table.ops.length, i ≠ j ∧
        table.ops[i].plane = table.ops[j].plane ∧
          ∃ code, table.ops[i].op.Matches code ∧ table.ops[j].op.Matches code := by
  have opsNodup : table.ops.Nodup := List.Nodup.of_map _ table.lines
  have perm : set.Perm table.ops := (List.perm_ext_iff_of_nodup nodup opsNodup).mpr mem
  have symm : Std.Symm fun o o' => ¬ CheckedOp.Overlap o o' := ⟨fun _ _ h h' => h h'.symm⟩
  rw [overlaps_ne_nil, perm.pairwise_iff (fun h => symm.symm _ _ h), List.pairwise_iff_getElem]
  push Not
  constructor
  · rintro ⟨i, j, hi, hj, lt, overlap⟩
    exact ⟨i, j, hi, hj, Nat.ne_of_lt lt, overlap⟩
  · rintro ⟨i, j, hi, hj, ne, overlap⟩
    rcases Nat.lt_or_gt_of_ne ne with lt | gt
    · exact ⟨i, j, hi, hj, lt, overlap⟩
    · exact ⟨j, i, hj, hi, gt, CheckedOp.Overlap.symm overlap⟩

/-- Overlap detection is exact: the test on two patterns, and the check of a table for the
instructions of each plane. -/
theorem overlap_detection_exact :
    (∀ op op' : OpPattern, intersectsSets op.logicMap op'.logicMap = true ↔
      ∃ code, op.Matches code ∧ op'.Matches code) ∧
    ∀ (table : InstructionTable) (set : List CheckedOp), set.Nodup →
      (∀ o, o ∈ set ↔ o ∈ table.ops) → (overlaps set ≠ [] ↔
        ∃ i j, ∃ hi : i < table.ops.length, ∃ hj : j < table.ops.length, i ≠ j ∧
          table.ops[i].plane = table.ops[j].plane ∧
            ∃ code, table.ops[i].op.Matches code ∧ table.ops[j].op.Matches code) :=
  ⟨OpPattern.intersectsSets_logicMap, overlaps_exact⟩

/-- Two instructions of the SH-2 table, a normal one and one for the system. -/
def mulLong : CheckedOp :=
  { name := "MUL.L Rm, Rn", op := ⟨"0000 nnnn mmmm 0111".toList, by decide⟩, line := 2
    plane := false }

def generalIllegal : CheckedOp :=
  { name := "General Illegal", op := ⟨"---- -111 ---- ----".toList, by decide⟩, line := 3
    plane := true }

def twoPlanes : InstructionTable := ⟨[mulLong, generalIllegal], by decide⟩

theorem twoPlanes_exact : overlaps twoPlanes.ops ≠ [] ↔
    ∃ i j, ∃ hi : i < twoPlanes.ops.length, ∃ hj : j < twoPlanes.ops.length, i ≠ j ∧
      twoPlanes.ops[i].plane = twoPlanes.ops[j].plane ∧
        ∃ code, twoPlanes.ops[i].op.Matches code ∧ twoPlanes.ops[j].op.Matches code :=
  overlap_detection_exact.2 twoPlanes twoPlanes.ops (List.Nodup.of_map _ twoPlanes.lines)
    fun _ => Iff.rfl

/-- Instructions of different planes share an opcode, and are not reported. -/
theorem planes_not_reported : overlaps twoPlanes.ops = [] ∧ mulLong ≠ generalIllegal ∧
    mulLong.op.Matches 0x0707 ∧ generalIllegal.op.Matches 0x0707 := by
  refine ⟨rfl, fun h => absurd (congrArg CheckedOp.plane h) (by decide), ?_, ?_⟩
  all_goals
    intro n b h
    have lt : n < 16 := OpPattern.lt_of_char? h
    revert b
    decide +revert

end Gen

end JCore
