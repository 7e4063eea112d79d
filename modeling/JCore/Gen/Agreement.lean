import JCore.Gen.Conditions

/-!
# The two tables give the same control signals

An operation matches one instruction and one of its slots, and what both tables assign
then is the value of the slot, or the default. The exception is a `std_logic` with two
values in the whole table: the direct table assigns it a condition or its negation,
which are the two values only if these are 0 and 1.

## Main definitions

* `Decided`: the values of a signal when one of their conditions holds
* `TablesAgree`: both tables assign the same

## Main results

* `simpleTable_eq`, `directTable_eq`: the assigned values
* `TablesAgree.oneAndZero`, `directTable_eq_of_oneAndZero`: a `std_logic` with two values
* `tables_agree_iff`: when the tables agree
-/

namespace JCore

namespace Gen

variable {ops : List Op} {o : Op} {op : Operation} {k : String}

/-! ### The selected value -/

theorem getElem?_oneHot {n i : ℕ} (hi : i < n) (j : ℕ) :
    (oneHot n i)[j]? = if j < n then some (decide (j = i)) else none := by
  rw [oneHot, List.getElem?_append, List.length_replicate]
  split_ifs with hji hjn hjn
  · rw [List.getElem?_replicate, if_pos hji, decide_eq_false (Nat.ne_of_lt hji)]
  · omega
  · rcases Nat.eq_or_lt_of_le (Nat.le_of_not_lt hji) with rfl | hlt
    · rw [Nat.sub_self, List.getElem?_cons_zero, decide_eq_true rfl]
    · rw [show j - i = j - i - 1 + 1 by omega, List.getElem?_cons_succ, List.getElem?_replicate,
        if_pos (by omega), decide_eq_false (Nat.ne_of_gt hlt)]
  · rw [show j - i = j - i - 1 + 1 by omega, List.getElem?_cons_succ, List.getElem?_replicate,
      if_neg (by omega)]

section Select

variable {α : Type*} [DecidableEq α] {β : Type*}

/-- The vector that compares a value with others is the one that stands for its place. -/
theorem map_decide_eq_oneHot_iff {l : List α} (hnodup : l.Nodup) {i : ℕ} (hi : i < l.length)
    (g : α) : l.map (fun v => decide (g = v)) = oneHot l.length i ↔ g = l[i] := by
  constructor
  · intro h
    have hbit := congrArg (fun bits : List Bool => bits[i]?) h
    simp only [List.getElem?_map, List.getElem?_eq_getElem hi, getElem?_oneHot hi, if_pos hi,
      Option.map_some, decide_true] at hbit
    exact of_decide_eq_true (Option.some.inj hbit)
  · rintro rfl
    refine List.ext_getElem? fun j => ?_
    rw [getElem?_oneHot hi, List.getElem?_map]
    split_ifs with hj
    · rw [List.getElem?_eq_getElem hj, Option.map_some]
      refine congrArg some (decide_eq_decide.mpr ?_)
      rw [hnodup.getElem_inj_iff]
      exact eq_comm
    · rw [List.getElem?_eq_none (Nat.le_of_not_lt hj), Option.map_none]

/-- A selection among the vectors of the places. -/
theorem selectAssign_oneHot {l : List α} (hnodup : l.Nodup) (f : α → β) (g : α) (others : β) :
    selectAssign (l.map fun v => decide (g = v))
      (l.zipIdx.map fun p => (f p.1, [oneHot l.length p.2])) others =
      if g ∈ l then f g else others := by
  have hplace : ∀ p ∈ l.zipIdx,
      ([oneHot l.length p.2].contains (l.map fun v => decide (g = v)) = true ↔ g = p.1) := by
    intro p hp
    obtain ⟨hlt, hget⟩ := List.mk_mem_zipIdx_iff_getElem?.mp hp |> List.getElem?_eq_some_iff.mp
    rw [List.contains_iff_mem, List.mem_singleton, map_decide_eq_oneHot_iff hnodup hlt, hget]
  rw [selectAssign]
  rcases hfind : List.find? _ _ with _ | branch
  · have hmem : g ∉ l := by
      intro hg
      obtain ⟨i, hi, rfl⟩ := List.getElem_of_mem hg
      have hp : (l[i], i) ∈ l.zipIdx :=
        List.mk_mem_zipIdx_iff_getElem?.mpr (List.getElem?_eq_getElem hi)
      exact List.find?_eq_none.mp hfind _ (List.mem_map_of_mem hp) ((hplace _ hp).mpr rfl)
    rw [if_neg hmem, Option.map_none, Option.getD_none]
  · obtain ⟨p, hp, rfl⟩ := List.mem_map.mp (List.mem_of_find?_eq_some hfind)
    have hg : g = p.1 := (hplace p hp).mp
      (List.find?_some (p := fun branch : β × List (List Bool) => branch.2.contains _) hfind)
    have hmem : p.1 ∈ l := List.mem_of_getElem? (List.mk_mem_zipIdx_iff_getElem?.mp hp)
    rw [hg, if_pos hmem, Option.map_some, Option.getD_some]

end Select

theorem mapM_map_eq_some {α β γ : Type*} {l : List α} {f : α → β} {h : β → Option γ} {g : α → γ}
    (hl : ∀ a ∈ l, h (f a) = some (g a)) : (l.map f).mapM h = some (l.map g) := by
  induction l with
  | nil => rfl
  | cons a l ih =>
    obtain ⟨ha, hl⟩ := List.forall_mem_cons.mp hl
    rw [List.map_cons, List.mapM_cons, ha, ih hl]
    rfl

/-! ### The assignments of the direct table -/

/-- The values with the conditions that the slot of an operation satisfies: each value has
one place, the given value has one, and its condition is the only one that holds. -/
structure Decided (values : List (Val × List LogicMap)) (op : Operation) (g : Val) : Prop where
  nodup : (values.map Prod.fst).Nodup
  mem : g ∈ values.map Prod.fst
  cond : 2 ≤ values.length → ∀ e ∈ values, valueCond op e.2 = some (decide (g = e.1))

variable {values : List (Val × List LogicMap)} {g : Val}

/-- A `std_logic` with two values is 1 for the first of them or for the second. -/
theorem Decided.sigAssign_pair {v₁ v₂ : Val} {c₁ c₂ : List LogicMap}
    (h : Decided [(v₁, c₁), (v₂, c₂)] op g) (htype : controlType k = some .stdLogic) :
    sigAssign k [(assignVal k v₁, c₁), (assignVal k v₂, c₂)] op =
      some (.bit (if assignVal k v₁ = some (.bit true) then decide (g = v₁)
        else !decide (g = v₁))) := by
  have hcond : valueCond op c₁ = some (decide (g = v₁)) :=
    h.cond (Nat.le_refl 2) (v₁, c₁) List.mem_cons_self
  rw [sigAssign.eq_def, if_pos ⟨htype, rfl⟩, List.head?_cons, Option.bind_some, hcond,
    Option.map_some]

/-- The vector of the conditions selects the given value. -/
theorem Decided.condSelect_eq (h : Decided values op g) (hlength : 2 ≤ values.length) :
    condSelect (values.map fun value => (assignVal k value.1, value.2)) op = assignVal k g := by
  have hne : values ≠ [] := List.ne_nil_of_length_pos (Nat.lt_of_lt_of_le (by decide) hlength)
  have hsplit := List.dropLast_append_getLast hne
  have hnodup : (values.dropLast.map Prod.fst).Nodup := by
    rw [List.map_dropLast]
    exact h.nodup.sublist (List.dropLast_sublist _)
  have hconds : (values.dropLast.map fun value => (assignVal k value.1, value.2)).mapM
      (fun value => valueCond op value.2) =
        some ((values.dropLast.map Prod.fst).map fun v => decide (g = v)) := by
    rw [List.map_map]
    exact mapM_map_eq_some fun e he => h.cond hlength e (List.dropLast_subset _ he)
  have hwidth : values.length - 1 = (values.dropLast.map Prod.fst).length := by
    rw [List.length_map, List.length_dropLast]
  rw [condSelect, ← List.map_dropLast, hconds, Option.bind_some, List.length_map, hwidth,
    List.getLast?_map, List.getLast?_eq_some_getLast hne]
  have hbranches : ((values.dropLast.map fun value => (assignVal k value.1, value.2)).zipIdx.map
      fun p => (p.1.1, [oneHot (values.dropLast.map Prod.fst).length p.2])) =
        (values.dropLast.map Prod.fst).zipIdx.map fun p =>
          (assignVal k p.1, [oneHot (values.dropLast.map Prod.fst).length p.2]) := by
    rw [List.zipIdx_map, List.zipIdx_map, List.map_map, List.map_map]
    rfl
  rw [hbranches, selectAssign_oneHot hnodup]
  split_ifs with hg
  · rfl
  · have hmem := h.mem
    rw [← hsplit, List.map_append, List.mem_append] at hmem
    rw [List.mem_singleton.mp (hmem.resolve_left hg)]
    rfl

/-- Every other signal has the given value. -/
theorem Decided.sigAssign_eq (h : Decided values op g)
    (htype : ¬ (controlType k = some .stdLogic ∧ values.length = 2)) :
    sigAssign k (values.map fun value => (assignVal k value.1, value.2)) op = assignVal k g := by
  rw [sigAssign.eq_def, List.length_map, if_neg htype]
  match values, h with
  | [], h => exact absurd h.mem List.not_mem_nil
  | [e], h =>
    rw [List.mem_singleton.mp h.mem]
    rfl
  | [(v₁, c₁), (v₂, c₂)], h =>
    have hcond : valueCond op c₁ = some (decide (g = v₁)) :=
      h.cond (Nat.le_refl 2) (v₁, c₁) List.mem_cons_self
    have hg : g = v₁ ∨ g = v₂ := by simpa using h.mem
    simp only [List.map_cons, List.map_nil, hcond, Option.bind_some]
    split_ifs with hfirst
    · rw [of_decide_eq_true hfirst]
    · rw [hg.resolve_left fun heq => hfirst (decide_eq_true heq)]
  | e₁ :: e₂ :: e₃ :: rest, h => exact h.condSelect_eq (by simp)

/-! ### Agreement -/

/-- A control signal that always has a value. -/
def NonNillable (k : String) : Prop := k ∈ controls.map Prod.fst ∧ k ∉ nillableOutputs

theorem lookup_defaultControls (hk : NonNillable k) :
    defaultControls.lookup k = some (defaultControl k) := by
  have hmem : k ∈ (controls.map Prod.fst).filter fun k => !nillableOutputs.contains k := by
    rw [List.mem_filter]
    exact ⟨hk.1, by simp [hk.2]⟩
  rw [defaultControls]
  generalize ((controls.map Prod.fst).filter fun k => !nillableOutputs.contains k) = keys at hmem ⊢
  induction keys with
  | nil => exact absurd hmem List.not_mem_nil
  | cons k' keys ih =>
    rw [List.map_cons, List.lookup_cons]
    rcases eq_or_ne k k' with rfl | hne
    · rw [beq_self_eq_true]
    · rw [beq_false_of_ne hne]
      exact ih (List.mem_of_ne_of_mem hne hmem)

theorem eval_zeroVal (tBcc : Bool) (k : String) : (zeroVal k).eval tBcc = zeroVal k := by
  rw [zeroVal]
  split <;> rfl

/-- A slot gives a value to every signal that is not nillable. -/
theorem exists_given_eq (hk : NonNillable k) (o : Op) (op : Operation) :
    ∃ g, o.given op k = some g := by
  rw [Op.given, List.lookup_append, lookup_defaultControls hk]
  cases (o.slotAt op).lookup k with
  | none => exact ⟨_, rfl⟩
  | some g => exact ⟨g, rfl⟩

/-- The simple table assigns the given value. -/
theorem simpleTable_eq (h : Checked ops) (hk : NonNillable k) (ho : o ∈ ops)
    (hop : stdMatch o.logicMap op = true) (hg : o.given op k = some g) (tBcc : Bool) :
    simpleTable ops k op tBcc = (assignVal k g).map (Expr.eval tBcc) := by
  have hfind : ops.find? (fun o => stdMatch o.logicMap op) = some o := by
    rcases hfind : ops.find? (fun o => stdMatch o.logicMap op) with _ | o'
    · exact absurd hop (List.find?_eq_none.mp hfind o ho)
    · have hop' := List.find?_some (p := fun o : Op => stdMatch o.logicMap op) hfind
      rw [hfind, h.matched_unique (List.mem_of_find?_eq_some hfind) ho hop' hop]
  rw [Op.given, List.lookup_append, lookup_defaultControls hk] at hg
  rw [simpleTable, hfind]
  dsimp only
  cases hslot : (o.slotAt op).lookup k with
  | none =>
    rw [hslot, Option.none_or] at hg
    rw [← Option.some.inj hg, assignVal_default hk.1, Option.map_some, eval_zeroVal]
  | some v =>
    rw [hslot, Option.some_or] at hg
    rw [Option.some.inj hg]

section Agreement

variable (reduce : Minimiser)
  (entries : List (Val × List LogicMap) → List (Val × List LogicMap))

/-- For an operation that matches an instruction, at each of its steps, the tables assign
the same to every signal that is not nillable, and to the outputs made of `mac-busy`. -/
def TablesAgree (ops : List Op) : Prop :=
  ∀ o ∈ ops, ∀ op, stdMatch o.logicMap op = true → op.addr.toNat % 16 < o.slots.length →
    ∀ tBcc, (∀ k, NonNillable k → simpleTable ops k op tBcc =
        directTable reduce entries ops k op tBcc) ∧
      ∀ nextIdStall, (simpleTable ops "mac-busy" op tBcc).map (macBusySimple nextIdStall) =
        (directTable reduce entries ops "mac-busy" op tBcc).map (macBusyDirect nextIdStall)

/-- The values that the direct assignment of a `std_logic` can tell apart. -/
def OneAndZero (ops : List Op) (k : String) : Prop :=
  ((controlValues ops k).map (assignVal k)).Perm [some (.bit false), some (.bit true)]

theorem macBusySimple_eq (nextIdStall : Bool) : macBusySimple nextIdStall =
    macBusyDirect nextIdStall := by
  funext busy
  by_cases hbusy : busy ∈ ["NOT_BUSY", "EX_NOT_STALL", "WB_NOT_STALL", "EX_BUSY", "WB_BUSY"].map
    Expr.literal
  · revert nextIdStall busy
    decide
  · simp only [List.map_cons, List.map_nil, List.mem_cons, List.not_mem_nil, or_false,
      not_or] at hbusy
    simp [macBusySimple, macBusyDirect, selectMacBusy, hbusy]

variable {reduce} {entries} (exact : ExactReduction reduce) (hentries : ∀ l, (entries l).Perm l)

include hentries

theorem sortedValues_perm (ops : List Op) (k : String) :
    (sortedValues reduce entries ops k).Perm (implicants reduce ops k) :=
  (List.perm_insertionSort _ _).trans (hentries _)

theorem map_fst_sortedValues (ops : List Op) (k : String) :
    ((sortedValues reduce entries ops k).map Prod.fst).Perm (controlValues ops k) := by
  refine ((sortedValues_perm hentries ops k).map Prod.fst).trans (.of_eq ?_)
  rw [implicants, List.map_map]
  exact List.map_id _

include exact

/-- The values of a signal are decided for every operation of the table. -/
theorem decided_sortedValues (h : Checked ops) (ho : o ∈ ops)
    (hop : stdMatch o.logicMap op = true) (hstep : op.addr.toNat % 16 < o.slots.length)
    (hg : o.given op k = some g) : Decided (sortedValues reduce entries ops k) op g where
  nodup := (map_fst_sortedValues hentries ops k).nodup_iff.mpr (nodup_eraseDups _)
  mem := (map_fst_sortedValues hentries ops k).mem_iff.mpr
    (mem_controlValues_of_given h ho hop hstep hg)
  cond hlength e he := by
    have hcount : 2 ≤ (controlValues ops k).length := by
      rw [← (map_fst_sortedValues hentries ops k).length_eq, List.length_map]
      exact hlength
    have hmem : (e.1, e.2) ∈ implicants reduce ops k :=
      (sortedValues_perm hentries ops k).mem_iff.mp he
    rw [valueCond_implicants exact hmem h hcount ho hop hstep, hg]
    exact congrArg some (decide_eq_decide.mpr (Option.some_inj))

/-- The direct table assigns the given value too, but for a `std_logic` with two values. -/
theorem directTable_eq (h : Checked ops) (ho : o ∈ ops) (hop : stdMatch o.logicMap op = true)
    (hstep : op.addr.toNat % 16 < o.slots.length) (hg : o.given op k = some g)
    (htype : ¬ (controlType k = some .stdLogic ∧ (controlValues ops k).length = 2)) (tBcc : Bool) :
    directTable reduce entries ops k op tBcc = (assignVal k g).map (Expr.eval tBcc) := by
  have hdecided := decided_sortedValues exact hentries h ho hop hstep hg
  rw [← (map_fst_sortedValues hentries ops k).length_eq, List.length_map] at htype
  rw [directTable, hdecided.sigAssign_eq htype]

/-- A `std_logic` with two values: the direct table looks at the first of them alone. -/
theorem directTable_pair (h : Checked ops) (htype : controlType k = some .stdLogic)
    (hcount : (controlValues ops k).length = 2) :
    ∃ v₁ v₂, v₁ ≠ v₂ ∧ (controlValues ops k).Perm [v₁, v₂] ∧
      ∀ o ∈ ops, ∀ op, stdMatch o.logicMap op = true → op.addr.toNat % 16 < o.slots.length →
        ∀ g, o.given op k = some g → ∀ tBcc, directTable reduce entries ops k op tBcc =
          some (.bit (if assignVal k v₁ = some (.bit true) then decide (g = v₁)
            else !decide (g = v₁))) := by
  have hperm : ((sortedValues reduce entries ops k).map Prod.fst).Perm (controlValues ops k) :=
    map_fst_sortedValues hentries ops k
  obtain ⟨⟨v₁, c₁⟩, ⟨v₂, c₂⟩, hsorted⟩ : ∃ e₁ e₂, sortedValues reduce entries ops k = [e₁, e₂] := by
    rw [← List.length_eq_two, ← List.length_map, hperm.length_eq, hcount]
  have hnodup := hperm.nodup_iff.mpr (nodup_eraseDups _)
  rw [hsorted] at hperm hnodup
  refine ⟨v₁, v₂, by simpa using hnodup, hperm.symm, fun o ho op hop hstep g hg tBcc => ?_⟩
  have hdecided := decided_sortedValues exact hentries h ho hop hstep hg
  rw [hsorted] at hdecided
  rw [directTable, hsorted]
  exact congrArg (Option.map _) (hdecided.sigAssign_pair htype)

omit exact hentries

/-- An expression with the same bit for both values of `t_bcc` is the bit. -/
theorem eq_bit_of_eval {e : Option Expr} {b : Bool}
    (h : ∀ tBcc, e.map (Expr.eval tBcc) = some (.bit b)) : e = some (.bit b) := by
  cases e with
  | none => exact absurd (h true) (Option.some_ne_none _).symm
  | some e =>
    cases e with
    | tBcc => exact absurd ((h true).trans (h false).symm) (by decide)
    | notTBcc => exact absurd ((h true).trans (h false).symm) (by decide)
    | bit b' => exact h true
    | literal name => exact h true
    | operand v => exact h true

/-- The two ways in which two values are 0 and 1. -/
theorem pair_of_perm {a b : Option Expr}
    (h : [a, b].Perm [some (.bit false), some (.bit true)]) :
    a = some (.bit false) ∧ b = some (.bit true) ∨
      a = some (.bit true) ∧ b = some (.bit false) := by
  have ha : a = some (.bit false) ∨ a = some (.bit true) := by
    simpa using h.mem_iff.mp List.mem_cons_self
  rcases ha with rfl | rfl
  · exact .inl ⟨rfl, List.singleton_perm_singleton.mp ((List.perm_cons _).mp h)⟩
  · have hswap := h.trans (.swap _ _ _)
    exact .inr ⟨rfl, List.singleton_perm_singleton.mp ((List.perm_cons _).mp hswap)⟩

include exact hentries

/-- Tables that agree have no `std_logic` with two other values than 0 and 1. -/
theorem TablesAgree.oneAndZero (hagree : TablesAgree reduce entries ops) (h : Checked ops)
    (hk : NonNillable k) (htype : controlType k = some .stdLogic)
    (hcount : (controlValues ops k).length = 2) : OneAndZero ops k := by
  obtain ⟨v₁, v₂, hne, hperm, hdirect⟩ := directTable_pair exact hentries h htype hcount
  have heval : ∀ g ∈ controlValues ops k, ∀ tBcc, (assignVal k g).map (Expr.eval tBcc) =
      some (.bit (if assignVal k v₁ = some (.bit true) then decide (g = v₁)
        else !decide (g = v₁))) := by
    intro g hg tBcc
    obtain ⟨o, ho, op, hop, hstep, hgiven⟩ := exists_given h hg
    rw [← simpleTable_eq h hk ho hop hgiven, ← hdirect o ho op hop hstep g hgiven tBcc]
    exact (hagree o ho op hop hstep tBcc).1 k hk
  have hfirst := eq_bit_of_eval (heval v₁ (hperm.mem_iff.mpr (by simp)))
  have hsecond := eq_bit_of_eval (heval v₂ (hperm.mem_iff.mpr (by simp)))
  refine (hperm.map (assignVal k)).trans ?_
  rw [decide_eq_true rfl] at hfirst
  rw [decide_eq_false (Ne.symm hne)] at hsecond
  split_ifs at hfirst hsecond with hone
  · rw [List.map_cons, List.map_cons, List.map_nil, hfirst, hsecond]
    exact .swap _ _ _
  · rw [List.map_cons, List.map_cons, List.map_nil, hfirst, hsecond]
    exact .refl _

/-- With the values 0 and 1 the condition of the first value, or its negation, is the
value. -/
theorem directTable_eq_of_oneAndZero (h : Checked ops) (ho : o ∈ ops)
    (hop : stdMatch o.logicMap op = true) (hstep : op.addr.toNat % 16 < o.slots.length)
    (hg : o.given op k = some g) (htype : controlType k = some .stdLogic)
    (hcount : (controlValues ops k).length = 2) (hvalues : OneAndZero ops k) (tBcc : Bool) :
    directTable reduce entries ops k op tBcc = (assignVal k g).map (Expr.eval tBcc) := by
  obtain ⟨v₁, v₂, hne, hperm, hdirect⟩ := directTable_pair exact hentries h htype hcount
  have hbits := (hperm.map (assignVal k)).symm.trans hvalues
  have hmem := hperm.mem_iff.mp (mem_controlValues_of_given h ho hop hstep hg)
  rw [List.map_cons, List.map_cons, List.map_nil] at hbits
  rw [hdirect o ho op hop hstep g hg]
  rcases pair_of_perm hbits with ⟨hfirst, hsecond⟩ | ⟨hfirst, hsecond⟩
  · rw [if_neg (by rw [hfirst]; decide)]
    rcases List.mem_pair.mp hmem with rfl | rfl
    · rw [hfirst, decide_eq_true rfl]
      rfl
    · rw [hsecond, decide_eq_false hne.symm]
      rfl
  · rw [if_pos hfirst]
    rcases List.mem_pair.mp hmem with rfl | rfl
    · rw [hfirst, decide_eq_true rfl]
      rfl
    · rw [hsecond, decide_eq_false hne.symm]
      rfl

/-- The tables agree if and only if no `std_logic` has exactly two values, unless these
are 0 and 1. -/
theorem tables_agree_iff (h : Checked ops) : TablesAgree reduce entries ops ↔
    ∀ k, NonNillable k → controlType k = some .stdLogic → (controlValues ops k).length = 2 →
      OneAndZero ops k := by
  constructor
  · exact fun hagree k => hagree.oneAndZero exact hentries h
  · intro hvalues o ho op hop hstep tBcc
    have hsignal : ∀ k, NonNillable k → simpleTable ops k op tBcc =
        directTable reduce entries ops k op tBcc := by
      intro k hk
      obtain ⟨g, hg⟩ := exists_given_eq hk o op
      rw [simpleTable_eq h hk ho hop hg]
      by_cases htype : controlType k = some .stdLogic ∧ (controlValues ops k).length = 2
      · rw [directTable_eq_of_oneAndZero exact hentries h ho hop hstep hg htype.1 htype.2
          (hvalues k hk htype.1 htype.2)]
      · rw [directTable_eq exact hentries h ho hop hstep hg htype]
    refine ⟨hsignal, fun nextIdStall => ?_⟩
    rw [hsignal "mac-busy" ⟨by decide, by decide⟩, macBusySimple_eq]

end Agreement

/-! ### Two tables of two instructions and the system operations -/

def nop : Op := ⟨"NOP".toList, '0', "0000 0000 0000 1001".toList,
  [[("incpc", .num 1), ("dispatch", .bool true), ("if-issue", .bool true)]]⟩

def bra : Op := ⟨"BRA label".toList, '0', "1010 dddd dddd dddd".toList,
  [[("xbus-sel", .kw "pc"), ("ybus-sel", .kw "imm"), ("arith-func", .kw "add"),
      ("zbus-sel", .kw "arith"), ("imm-val", .imm "s" 12 1), ("wrpc-z", .num 1),
      ("incpc", .num 1)],
    [("ifadsel", .num 1), ("dispatch", .bool true), ("if-issue", .bool true),
      ("delay-jump", .num 1)]]⟩

/-- `BT /S label` -/
def bts : Op := ⟨"BT /S label".toList, '0', "1000 1101 dddd dddd".toList,
  [[("xbus-sel", .kw "pc"), ("ybus-sel", .kw "imm"), ("arith-func", .kw "add"),
      ("zbus-sel", .kw "arith"), ("imm-val", .imm "s" 8 1), ("wrpc-z", .kw "t"),
      ("incpc", .num 1), ("dispatch", .kw "nt"), ("if-issue", .kw "nt")],
    [("ifadsel", .num 1), ("dispatch", .bool true), ("if-issue", .bool true),
      ("delay-jump", .num 1)]]⟩

/-- A system operation of a single slot, which takes up the next instruction. -/
def systemOp (name op : String) : Op := ⟨name.toList, '1', op.toList,
  [[("incpc", .num 1), ("dispatch", .bool true), ("if-issue", .bool true)]]⟩

/-- The operations that a table must have, with the patterns of the spreadsheet. -/
def events : List Op := [
  systemOp "Interrupt" "---- -000 dddd dddd", systemOp "Error" "---- -001 dddd dddd",
  systemOp "Break" "---- -010 dddd dddd", systemOp "Reset CPU" "---- -011 dddd dddd"]

/-- Two conditions of which one asks for a bit and the other for its opposite. -/
def conflict (m m' : LogicMap) : Bool :=
  m.any fun p => m.lookup p.1 == some p.2 && m'.lookup p.1 == some !p.2

/-- Patterns that exclude each other in a bit. -/
theorem Checked.of_conflicts
    (hwidth : ∀ o ∈ ops, (o.op.filter fun c => c != ' ').length ≤ 16)
    (hconflict : ops.Pairwise fun o o' => conflict o.logicMap o'.logicMap = true)
    (hslots : ∀ o ∈ ops, o.slots.length ≤ 16)
    (hsystem : ∀ literal ∈ namedSystemOps, literal ∈ systemOps ops) : Checked ops where
  width := hwidth
  disjoint := by
    refine hconflict.imp_of_mem fun {o o'} ho ho' hbits op hboth => ?_
    rw [stdMatch_iff (hwidth o ho), stdMatch_iff (hwidth o' ho')] at hboth
    obtain ⟨p, -, hp⟩ := List.any_eq_true.mp hbits
    rw [Bool.and_eq_true, beq_iff_eq, beq_iff_eq] at hp
    have hopposite := (hboth.1 p.1 p.2 hp.1).symm.trans (hboth.2 p.1 (!p.2) hp.2)
    exact (Bool.not_ne_self p.2) hopposite.symm
  slots := hslots
  system := hsystem

theorem checked_nop_bra : Checked (nop :: bra :: events) :=
  .of_conflicts (by decide +kernel) (by decide +kernel) (by decide +kernel) (by decide +kernel)

theorem checked_nop_bts : Checked (nop :: bts :: events) :=
  .of_conflicts (by decide +kernel) (by decide +kernel) (by decide +kernel) (by decide +kernel)

/-- `wrpc-z` is 0 and 1 in this table. -/
theorem tables_agree_nop_bra : TablesAgree id id (nop :: bra :: events) := by
  refine (tables_agree_iff exactReduction_id (fun l => .refl l) checked_nop_bra).mpr ?_
  have hall : ∀ k ∈ controls.map Prod.fst, controlType k = some .stdLogic →
      (controlValues (nop :: bra :: events) k).length = 2 →
        OneAndZero (nop :: bra :: events) k := by
    unfold OneAndZero
    decide +kernel
  exact fun k hk => hall k hk.1

/-- In this table `wrpc-z` is 0 and the signal `t_bcc`. The direct table sets it to 0 for
the slot in which it should be `t_bcc`. -/
theorem tables_differ_nop_bts : Checked (nop :: bts :: events) ∧
    (simpleTable (nop :: bts :: events) "wrpc-z" ⟨.normalInstr, 0x8D00#16, 0#8⟩ true = some (.bit true) ∧
      directTable id id (nop :: bts :: events) "wrpc-z" ⟨.normalInstr, 0x8D00#16, 0#8⟩ true =
        some (.bit false)) ∧
    ∀ reduce entries, ExactReduction reduce → (∀ l, (entries l).Perm l) →
      ¬ TablesAgree reduce entries (nop :: bts :: events) := by
  refine ⟨checked_nop_bts, ⟨by decide +kernel, by decide +kernel⟩, ?_⟩
  intro reduce entries exact hentries hagree
  have hvalues := hagree.oneAndZero exact hentries checked_nop_bts (k := "wrpc-z")
    ⟨by decide, by decide⟩ (by decide) (by decide +kernel)
  have hbits : ((controlValues (nop :: bts :: events) "wrpc-z").map (assignVal "wrpc-z")) =
      [some (.bit false), some .tBcc] := by decide +kernel
  rw [OneAndZero, hbits] at hvalues
  exact absurd hvalues (by decide)

end Gen

end JCore
