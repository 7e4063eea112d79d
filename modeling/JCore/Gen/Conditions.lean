import Mathlib.Data.List.GetD
import Mathlib.Data.List.Pairwise
import Mathlib.Data.Nat.Bitwise
import JCore.Lib.Cubes
import JCore.Gen.RomLines
import JCore.Gen.Tables

/-!
# The conditions of the direct table

The condition of a value in the direct table holds for an operation if and only if the
value is the one of the slot that the operation selects.

## Main definitions

* `Checked`: what the generator relies on in the instruction table
* `Op.given`: the value that a slot gives to a signal

## Main results

* `sat_slotCond`: the condition of a slot
* `exists_entry_iff`: the slots whose conditions hold
* `valueCond_implicants`: the conditions after the reduction
-/

namespace JCore

namespace Gen

/-! ### Maps of a string -/

/-- A numbered list as a map from the numbers, of the entries that have a value. -/
theorem lookup_filterMap_zipIdx {α β γ : Type*} [DecidableEq γ] (f : α → Option β) {k : ℕ → γ}
    (hk : k.Injective) (n : ℕ) (l : List α) (start : ℕ) :
    ((l.zipIdx start).filterMap fun p => (f p.1).map fun b => (k p.2, b)).lookup (k n) =
      if start ≤ n then (l[n - start]?).bind f else none := by
  induction l generalizing start with
  | nil => simp
  | cons a l ih =>
    specialize ih (start + 1)
    have hkey : (k n == k start) = decide (n = start) := by
      rw [beq_eq_decide]
      exact decide_eq_decide.mpr hk.eq_iff
    rcases Nat.lt_trichotomy start n with hlt | rfl | hgt
    · have hsub : n - start = n - (start + 1) + 1 := by omega
      rw [if_pos (Nat.succ_le_of_lt hlt)] at ih
      rw [if_pos (Nat.le_of_lt hlt), hsub, List.getElem?_cons_succ, ← ih]
      cases ha : f a with
      | none => simp [ha]
      | some b => simp [ha, List.lookup_cons, hkey, Nat.ne_of_gt hlt]
    · rw [if_neg (Nat.not_succ_le_self _)] at ih
      cases ha : f a with
      | none => simpa [ha] using ih
      | some b => simp [ha]
    · rw [if_neg (by omega)] at ih ⊢
      cases ha : f a with
      | none => simpa [ha] using ih
      | some b => simpa [ha, List.lookup_cons, hkey, Nat.ne_of_lt hgt] using ih

theorem lookup_strToLogicMap {k : ℕ → LogicVar} (hk : k.Injective) (s : List Char) (n : ℕ) :
    (strToLogicMap k s).lookup (k n) =
      ((s.filter fun c => c != ' ').reverse[n]?).bind charBit := by
  refine (lookup_filterMap_zipIdx charBit hk n _ 0).trans ?_
  rw [if_pos (Nat.zero_le n), Nat.sub_zero]

theorem mem_strToLogicMap {k : ℕ → LogicVar} {s : List Char} {p : LogicVar × Bool}
    (h : p ∈ strToLogicMap k s) : ∃ n < (s.filter fun c => c != ' ').length, p.1 = k n := by
  obtain ⟨⟨c, n⟩, hmem, hp⟩ := List.mem_filterMap.mp h
  obtain ⟨b, -, rfl⟩ := Option.map_eq_some_iff.mp hp
  have hlt := (List.mem_zipIdx hmem).2.1
  rw [Nat.zero_add, List.length_reverse] at hlt
  exact ⟨n, hlt, rfl⟩

theorem lookup_eq_none_of_keys {m : LogicMap} {v : LogicVar} (h : ∀ p ∈ m, p.1 ≠ v) :
    m.lookup v = none := by
  rw [List.lookup_eq_none_iff]
  exact fun p hp => bne_iff_ne.mpr (h p hp).symm

/-! ### The condition of a slot -/

/-- What the generator relies on: patterns for the 16 bits of an instruction that exclude
each other, as many slots as the low address bits can number, and the operations that the
decoder's package names. -/
structure Checked (ops : List Op) : Prop where
  width : ∀ o ∈ ops, (o.op.filter fun c => c != ' ').length ≤ 16
  disjoint : ops.Pairwise fun o o' =>
    ∀ op, ¬ (stdMatch o.logicMap op = true ∧ stdMatch o'.logicMap op = true)
  slots : ∀ o ∈ ops, o.slots.length ≤ 16
  system : ∀ literal ∈ namedSystemOps, literal ∈ systemOps ops

variable {ops : List Op} {o o' : Op} {op : Operation} {k : String}

theorem mem_logicMap {p : LogicVar × Bool} (h : p ∈ o.logicMap) :
    p.1 = .p 0 ∨ ∃ n < (o.op.filter fun c => c != ' ').length, p.1 = .i n := by
  rcases List.mem_append.mp h with hplane | hcode
  · obtain ⟨n, hlt, hp⟩ := mem_strToLogicMap hplane
    have hle : ([o.plane].filter fun c => c != ' ').length ≤ 1 := List.length_filter_le _ _
    obtain rfl : n = 0 := by omega
    exact .inl hp
  · exact .inr (mem_strToLogicMap hcode)

/-- `std_match` looks at all the bits of the map. -/
theorem stdMatch_iff (hwidth : (o.op.filter fun c => c != ' ').length ≤ 16) :
    stdMatch o.logicMap op = true ↔ Sat (opBit op) o.logicMap := by
  rw [stdMatch, List.all_eq_true]
  constructor
  · intro h v b hv
    have hmem : v ∈ [LogicVar.p 0] ++ (List.range 16).reverse.map LogicVar.i := by
      rcases mem_logicMap (mem_of_lookup hv) with rfl | ⟨n, hlt, rfl⟩
      · exact List.mem_append_left _ (List.mem_singleton_self _)
      · refine List.mem_append_right _ (List.mem_map_of_mem ?_)
        rw [List.mem_reverse, List.mem_range]
        exact Nat.lt_of_lt_of_le hlt hwidth
    have hbit := h v hmem
    rw [hv] at hbit
    exact eq_of_beq hbit
  · intro h v _
    rcases hv : o.logicMap.lookup v with _ | b
    · rfl
    · exact beq_iff_eq.mpr (h v b hv)

/-- The operation with given bits. -/
def operationOf (plane : Bool) (code : ℕ → Bool) (addr : ℕ) : Operation where
  plane := if plane then .systemInstr else .normalInstr
  code := (BitVec.ofBoolListLE ((List.range 16).map code)).setWidth 16
  addr := BitVec.ofNat 8 addr

/-- Every pattern matches an operation at every step. -/
theorem exists_stdMatch (hwidth : (o.op.filter fun c => c != ' ').length ≤ 16) {j : ℕ}
    (hj : j < 16) : ∃ op, stdMatch o.logicMap op = true ∧ op.addr.toNat % 16 = j := by
  refine ⟨operationOf ((o.logicMap.lookup (.p 0)).getD false)
    (fun n => (o.logicMap.lookup (.i n)).getD false) j, (stdMatch_iff hwidth).mpr ?_, ?_⟩
  · intro v b hv
    rcases mem_logicMap (mem_of_lookup hv) with rfl | ⟨n, hlt, rfl⟩
    · rw [opBit, operationOf, hv]
      cases b <;> rfl
    · have hn : n < 16 := Nat.lt_of_lt_of_le hlt hwidth
      rw [opBit, operationOf, BitVec.getLsbD_setWidth, BitVec.getLsbD_ofBoolListLE,
        List.getD_eq_getElem?_getD, List.getElem?_map, List.getElem?_range hn, decide_eq_true hn,
        Bool.true_and, Option.map_some, Option.getD_some, hv, Option.getD_some]
  · change (BitVec.ofNat 8 j).toNat % 16 = j
    rw [BitVec.toNat_ofNat]
    omega

/-- The operation that is matched determines the instruction. -/
theorem Checked.matched_unique (h : Checked ops) (ho : o ∈ ops) (ho' : o' ∈ ops)
    (hop : stdMatch o.logicMap op = true) (hop' : stdMatch o'.logicMap op = true) : o = o' := by
  by_contra hne
  have : Std.Symm fun o o' : Op =>
      ∀ op, ¬ (stdMatch o.logicMap op = true ∧ stdMatch o'.logicMap op = true) :=
    ⟨fun _ _ hdisjoint op hboth => hdisjoint op hboth.symm⟩
  exact h.disjoint.forall ho ho' hne op ⟨hop, hop'⟩

theorem getElem?_bits (i n : ℕ) :
    i.bits[n]? = if n < i.size then some (i.testBit n) else none := by
  split_ifs with h
  · rw [← Nat.size_eq_bits_len] at h
    rw [List.getElem?_eq_getElem h, Nat.testBit_eq_inth, List.getI_eq_getElem]
  · rw [← Nat.size_eq_bits_len] at h
    exact List.getElem?_eq_none (Nat.le_of_not_lt h)

/-- The digits of a number that fits fill up the zeros. -/
theorem getElem?_toBinaryString_or {w i : ℕ} (hpos : 0 < w) (hi : i < 2 ^ w) (n : ℕ) :
    ((toBinaryString i).reverse[n]?).or (if n < w then some false else none) =
      if n < w then some (i.testBit n) else none := by
  rw [toBinaryString]
  split_ifs with hzero hn hn
  · subst hzero
    cases n <;> simp
  · rw [List.reverse_singleton, List.getElem?_eq_none (by simp; omega), Option.none_or]
  · rw [List.reverse_reverse, getElem?_bits]
    split_ifs with hsize
    · rfl
    · rw [Option.none_or, Nat.testBit_lt_two_pow (Nat.size_le.mp (Nat.le_of_not_lt hsize))]
  · have hsize : ¬ n < i.size := fun h => hn (Nat.lt_of_lt_of_le h (Nat.size_le.mpr hi))
    rw [List.reverse_reverse, getElem?_bits, if_neg hsize, Option.none_or]

/-- The bits of a number that fits, with leading zeros. -/
theorem lookup_seqLogicMap {w i : ℕ} (hpos : 0 < w) (hi : i < 2 ^ w) (n : ℕ) :
    (seqLogicMap w i).lookup (.s n) = if n < w then some (i.testBit n) else none := by
  have hs : Function.Injective LogicVar.s := fun _ _ => LogicVar.s.inj
  have hzeros : ((List.replicate w '0').filter fun c => c != ' ').reverse[n]?.bind charBit =
      if n < w then some false else none := by
    rw [List.filter_eq_self.mpr fun c hc => by rw [List.eq_of_mem_replicate hc]; rfl,
      List.reverse_replicate, List.getElem?_replicate]
    split <;> rfl
  have hdigits : ∀ l : List Bool,
      ((l.map fun b => if b then '1' else '0').filter fun c => c != ' ').reverse[n]?.bind charBit =
        l.reverse[n]? := by
    intro l
    rw [List.filter_eq_self.mpr, ← List.map_reverse, List.getElem?_map]
    · rcases l.reverse[n]? with _ | b
      · rfl
      · cases b <;> rfl
    · intro c hc
      obtain ⟨b, -, rfl⟩ := List.mem_map.mp hc
      cases b <;> rfl
  rw [seqLogicMap, LogicMap.merge, List.lookup_append, lookup_strToLogicMap hs,
    lookup_strToLogicMap hs, hzeros, hdigits, getElem?_toBinaryString_or hpos hi]

theorem mem_seqLogicMap {w i : ℕ} {p : LogicVar × Bool} (h : p ∈ seqLogicMap w i) :
    ∃ n, p.1 = .s n := by
  rcases List.mem_append.mp h with h | h
  · exact (mem_strToLogicMap h).imp fun _ => And.right
  · exact (mem_strToLogicMap h).imp fun _ => And.right

theorem sat_seqLogicMap {w i : ℕ} (hpos : 0 < w) (hi : i < 2 ^ w) (σ : LogicVar → Bool) :
    Sat σ (seqLogicMap w i) ↔ ∀ n < w, σ (.s n) = i.testBit n := by
  constructor
  · intro h n hn
    exact h (.s n) _ (by rw [lookup_seqLogicMap hpos hi, if_pos hn])
  · intro h v b hv
    obtain ⟨n, rfl⟩ := mem_seqLogicMap (mem_of_lookup hv)
    rw [lookup_seqLogicMap hpos hi] at hv
    split_ifs at hv with hn
    exact (h n hn).trans (Option.some.inj hv)

/-- Numbers that fit are equal if their bits are. -/
theorem eq_of_testBit_lt {w i j : ℕ} (hi : i < 2 ^ w) (hj : j < 2 ^ w)
    (h : ∀ n < w, j.testBit n = i.testBit n) : i = j := by
  refine Nat.eq_of_testBit_eq fun n => ?_
  rcases Nat.lt_or_ge n w with hn | hn
  · exact (h n hn).symm
  · have hle : 2 ^ w ≤ 2 ^ n := Nat.pow_le_pow_right (by decide) hn
    rw [Nat.testBit_lt_two_pow (Nat.lt_of_lt_of_le hi hle),
      Nat.testBit_lt_two_pow (Nat.lt_of_lt_of_le hj hle)]

/-- The bits of the address below the width of a step number are those of the step. -/
theorem opBit_step {w n : ℕ} (hw : w ≤ 4) (hn : n < w) :
    opBit op (.s n) = (op.addr.toNat % 16).testBit n := by
  have hlt : n < 4 := Nat.lt_of_lt_of_le hn hw
  rw [show (16 : ℕ) = 2 ^ 4 from rfl, Nat.testBit_mod_two_pow, decide_eq_true hlt, Bool.true_and,
    BitVec.testBit_toNat]
  rfl

theorem log2_le_four {n : ℕ} (hpos : n ≠ 0) (h : n ≤ 16) : log2 n ≤ 4 := by
  rw [log2, if_neg hpos]
  exact Nat.size_le.mpr (by omega)

/-- The condition of a slot: the operation matches the pattern, and its step is the slot. -/
theorem sat_slotCond (hwidth : (o.op.filter fun c => c != ' ').length ≤ 16)
    (hslots : o.slots.length ≤ 16) {i : ℕ} (hi : i < o.slots.length) (hop : stdMatch o.logicMap op →
      op.addr.toNat % 16 < o.slots.length) :
    Sat (opBit op) (o.slotCond i) ↔ stdMatch o.logicMap op = true ∧ i = op.addr.toNat % 16 := by
  have hw := log2_le_four (Nat.ne_zero_of_lt hi) hslots
  have hlt := lt_two_pow_log2 hi
  rw [Op.slotCond, stdMatch_iff hwidth]
  rw [stdMatch_iff hwidth] at hop
  split_ifs with hpos
  · rw [LogicMap.merge, sat_append, and_comm, sat_seqLogicMap hpos hlt]
    · refine and_congr_right fun hsat => ⟨fun h => ?_, fun h n hn => ?_⟩
      · refine eq_of_testBit_lt hlt (lt_two_pow_log2 (hop hsat)) fun n hn => ?_
        exact (opBit_step hw hn).symm.trans (h n hn)
      · rw [opBit_step hw hn, h]
    · intro v b hv
      refine lookup_eq_none_of_keys fun p hp hpv => ?_
      obtain ⟨n, hn⟩ := mem_seqLogicMap hp
      rw [← hpv, hn] at hv
      rcases mem_logicMap (mem_of_lookup hv) with h | ⟨_, -, h⟩
      · exact LogicVar.noConfusion h
      · exact LogicVar.noConfusion h
  · refine ⟨fun hsat => ⟨hsat, ?_⟩, And.left⟩
    have hstep := lt_two_pow_log2 (hop hsat)
    rw [Nat.eq_zero_of_not_pos hpos] at hlt hstep
    omega

/-! ### The values of a signal -/

/-- The value that the slot of the operation gives to a signal, with its default. -/
def Op.given (o : Op) (op : Operation) (k : String) : Option Val :=
  (o.slotAt op ++ defaultControls).lookup k

theorem mem_controlEntries {v : Val} {m : LogicMap} :
    (v, m) ∈ controlEntries ops k ↔ ∃ o ∈ ops, ∃ i, ∃ h : i < o.slots.length,
      (o.slots[i] ++ defaultControls).lookup k = some v ∧ o.slotCond i = m := by
  simp only [controlEntries, mcodes, Op.mcodes, List.mem_filterMap, List.mem_flatMap,
    List.mem_mapIdx, Option.map_eq_some_iff, Prod.mk.injEq]
  constructor
  · rintro ⟨_, ⟨o, ho, i, hi, rfl⟩, _, hv, rfl, rfl⟩
    exact ⟨o, ho, i, hi, hv, rfl⟩
  · rintro ⟨o, ho, i, hi, hv, rfl⟩
    exact ⟨_, ⟨o, ho, i, hi, rfl⟩, v, hv, rfl, rfl⟩

section Selected

variable (h : Checked ops) (ho : o ∈ ops) (hop : stdMatch o.logicMap op = true)
  (hstep : op.addr.toNat % 16 < o.slots.length)

include h ho hop hstep

/-- The conditions of the slots with a value hold for the slot of the operation alone. -/
theorem exists_entry_iff (v : Val) :
    (∃ m, (v, m) ∈ controlEntries ops k ∧ Sat (opBit op) m) ↔ o.given op k = some v := by
  have hslot : o.slotAt op = o.slots[op.addr.toNat % 16] := by
    rw [Op.slotAt, List.getElem?_eq_getElem hstep, Option.getD_some]
  constructor
  · rintro ⟨m, hm, hsat⟩
    obtain ⟨o', ho', i, hi, hv, rfl⟩ := mem_controlEntries.mp hm
    have hmatched : stdMatch o'.logicMap op = true → o' = o := fun hop' =>
      h.matched_unique ho' ho hop' hop
    have hboth := (sat_slotCond (h.width o' ho') (h.slots o' ho') hi fun hop' => by
      rw [hmatched hop']
      exact hstep).mp hsat
    obtain rfl := hmatched hboth.1
    rw [Op.given, hslot]
    convert hv using 4
    exact hboth.2.symm
  · intro hv
    rw [Op.given, hslot] at hv
    refine ⟨_, mem_controlEntries.mpr ⟨o, ho, _, hstep, hv, rfl⟩, ?_⟩
    exact (sat_slotCond (h.width o ho) (h.slots o ho) hstep fun _ => hstep).mpr ⟨hop, rfl⟩

theorem mem_controlValues_of_given {v : Val} (hv : o.given op k = some v) :
    v ∈ controlValues ops k := by
  obtain ⟨m, hm, -⟩ := (exists_entry_iff h ho hop hstep v).mpr hv
  exact List.mem_eraseDups.mpr (List.mem_map_of_mem hm)

end Selected

/-- Each value is the value of some operation. -/
theorem exists_given (h : Checked ops) {v : Val} (hv : v ∈ controlValues ops k) :
    ∃ o ∈ ops, ∃ op, stdMatch o.logicMap op = true ∧ op.addr.toNat % 16 < o.slots.length ∧
      o.given op k = some v := by
  obtain ⟨⟨v, m⟩, hm, rfl⟩ := List.mem_map.mp (List.mem_eraseDups.mp hv)
  obtain ⟨o, ho, i, hi, hv, -⟩ := mem_controlEntries.mp hm
  obtain ⟨op, hop, rfl⟩ := exists_stdMatch (h.width o ho)
    (Nat.lt_of_lt_of_le hi (h.slots o ho))
  refine ⟨o, ho, op, hop, hi, ?_⟩
  rw [Op.given, Op.slotAt, List.getElem?_eq_getElem hi, Option.getD_some]
  exact hv

/-! ### The conditions of the direct table -/

/-- A disjunction of conditions that all ask for something. -/
theorem valueCond_eq {conds : List LogicMap} (hne : conds ≠ []) (hsome : [] ∉ conds) :
    valueCond op conds = some (conds.any fun m => m.all fun p => opBit op p.1 == p.2) := by
  have hbits : (conds.map fun m => logicMapToBit m op).filterMap id =
      conds.map fun m => m.all fun p => opBit op p.1 == p.2 := by
    clear hne
    induction conds with
    | nil => rfl
    | cons m conds ih =>
      obtain ⟨hm, hconds⟩ := not_or.mp (List.mem_cons.not.mp hsome)
      have hempty : m.isEmpty = false := List.isEmpty_eq_false_iff.mpr (Ne.symm hm)
      rw [List.map_cons, logicMapToBit, hempty, List.map_cons, ← ih hconds]
      rfl
  rw [valueCond, vOr, hbits]
  cases conds with
  | nil => exact absurd rfl hne
  | cons m conds =>
    refine congrArg some ?_
    rw [List.any_map]
    rfl

theorem exists_all_reduceImplicants_of_care {reduce : Minimiser} {care : (LogicVar → Bool) → Prop}
    (exact : ExactOn reduce care) (maps : List LogicMap) {σ : LogicVar → Bool} (hσ : care σ) :
    (∃ m ∈ reduceImplicants reduce maps, (m.all fun p => σ p.1 == p.2) = true) ↔
      ∃ m ∈ maps, Sat σ m := by
  rw [reduceImplicants]
  split_ifs with hempty
  · rw [List.isEmpty_iff.mp hempty]
    simp
  · refine exact.exists_all_iff (fun m hm p hp => ?_) hσ
    exact List.mem_eraseDups.mpr (List.mem_flatMap.mpr ⟨m, hm, List.mem_map_of_mem hp⟩)

theorem exists_all_reduceImplicants {reduce : Minimiser} (exact : ExactReduction reduce)
    (maps : List LogicMap) (σ : LogicVar → Bool) :
    (∃ m ∈ reduceImplicants reduce maps, (m.all fun p => σ p.1 == p.2) = true) ↔
      ∃ m ∈ maps, Sat σ m :=
  exists_all_reduceImplicants_of_care (exact.exactOn fun _ => True) maps trivial

/-- The reduced maps have no bit twice. -/
theorem nodup_reduceImplicants {reduce : Minimiser} {maps : List LogicMap} {m : LogicMap}
    (hm : m ∈ reduceImplicants reduce maps) : (m.map Prod.fst).Nodup := by
  rw [reduceImplicants] at hm
  split_ifs at hm with hempty
  · exact absurd hm List.not_mem_nil
  · obtain ⟨t, -, rfl⟩ := List.mem_map.mp hm
    exact nodup_cubeOf (nodup_eraseDups _) t

/-- The reduced maps have bits that the maps have. -/
theorem exists_key_of_mem_reduceImplicants {reduce : Minimiser} {maps : List LogicMap}
    {m : LogicMap} (hm : m ∈ reduceImplicants reduce maps) {p : LogicVar × Bool} (hp : p ∈ m) :
    ∃ m' ∈ maps, ∃ q ∈ m', q.1 = p.1 := by
  rw [reduceImplicants] at hm
  split_ifs at hm with hempty
  · exact absurd hm List.not_mem_nil
  · obtain ⟨t, -, rfl⟩ := List.mem_map.mp hm
    have hkey := List.mem_eraseDups.mp (fst_mem_of_mem_cubeOf hp)
    obtain ⟨m', hm', hkey⟩ := List.mem_flatMap.mp hkey
    obtain ⟨q, hq, hkey⟩ := List.mem_map.mp hkey
    exact ⟨m', hm', q, hq, hkey⟩

section Conditions

variable {reduce : Minimiser} (exact : ExactReduction reduce) {v : Val} {conds : List LogicMap}
  (hv : (v, conds) ∈ implicants reduce ops k)

include exact hv

/-- The reduced conditions of a value hold where those of its slots do. -/
theorem exists_implicant_iff (σ : LogicVar → Bool) :
    (∃ m ∈ conds, (m.all fun p => σ p.1 == p.2) = true) ↔
      ∃ m, (v, m) ∈ controlEntries ops k ∧ Sat σ m := by
  obtain ⟨v, -, hpair⟩ := List.mem_map.mp hv
  obtain ⟨rfl, rfl⟩ := Prod.mk.inj hpair
  rw [exists_all_reduceImplicants exact]
  constructor
  · rintro ⟨m, hm, hsat⟩
    obtain ⟨⟨v', m⟩, hentry, rfl⟩ := List.mem_map.mp hm
    obtain ⟨hmem, hvalue⟩ := List.mem_filter.mp hentry
    obtain rfl := eq_of_beq hvalue
    exact ⟨m, hmem, hsat⟩
  · rintro ⟨m, hmem, hsat⟩
    refine ⟨m, List.mem_map_of_mem (f := Prod.snd) (List.mem_filter.mpr ⟨hmem, ?_⟩), hsat⟩
    exact beq_self_eq_true v

/-- The condition of a value holds if and only if the slot has the value. -/
theorem valueCond_implicants (h : Checked ops) (hcount : 2 ≤ (controlValues ops k).length)
    (ho : o ∈ ops) (hop : stdMatch o.logicMap op = true)
    (hstep : op.addr.toNat % 16 < o.slots.length) :
    valueCond op conds = some (decide (o.given op k = some v)) := by
  have hvalue : v ∈ controlValues ops k := by
    obtain ⟨v', hv', hpair⟩ := List.mem_map.mp hv
    rwa [← (Prod.mk.inj hpair).1]
  have hne : conds ≠ [] := by
    obtain ⟨o', ho', op', hop', hstep', hgiven⟩ := exists_given h hvalue
    obtain ⟨m, hm, -⟩ := (exists_implicant_iff exact hv (opBit op')).mpr
      ((exists_entry_iff h ho' hop' hstep' v).mpr hgiven)
    exact List.ne_nil_of_mem hm
  have hsome : [] ∉ conds := by
    intro hempty
    obtain ⟨v', hv', hother⟩ : ∃ v' ∈ controlValues ops k, v' ≠ v := by
      by_contra! hall
      have hle := (nodup_eraseDups _).length_le_of_subset fun v' hv' =>
        List.mem_singleton.mpr (hall v' hv')
      exact absurd (Nat.le_trans hcount hle) (by simp)
    obtain ⟨o', ho', op', hop', hstep', hgiven⟩ := exists_given h hv'
    have hcover := (exists_entry_iff h ho' hop' hstep' v).mp
      ((exists_implicant_iff exact hv (opBit op')).mp ⟨[], hempty, rfl⟩)
    exact hother (Option.some.inj (hgiven.symm.trans hcover))
  rw [valueCond_eq hne hsome]
  refine congrArg some ?_
  rw [Bool.eq_iff_iff, List.any_eq_true, decide_eq_true_iff, exists_implicant_iff exact hv,
    exists_entry_iff h ho hop hstep]

end Conditions

end Gen

end JCore
