import Mathlib.Algebra.Order.BigOperators.Group.List
import Mathlib.Algebra.Order.Ring.Nat
import Mathlib.Data.List.Sort
import Mathlib.Data.Nat.Cast.Basic
import Mathlib.Data.Nat.Log
import JCore.Lib.BitString
import JCore.Lib.Blocks

/-!
# The placement of the microcode

The addresses that `reorder-microcode` of `rom.clj` gives to the instructions, in both of its
methods: one after the other, or the longest first, each in an aligned gap of the ROM.

## Main definitions

* `reorderMicrocode`: the function, on instructions with numbers of slots
* `Placed`: no two instructions share an address, and none has address 255
* `lastFree`: what is left at the end of the ROM by the instructions of given lengths

## Main results

* `placeLen_spec`: what the instructions of one length do to the gaps
* `reorder_placed_iff`: when the addresses are as they should be
-/

namespace JCore

namespace Gen

/-- The methods of `reorder-microcode`. -/
inductive ReorderMethod where
  | nop
  | align16
  deriving DecidableEq, Repr

/-- `Long/highestOneBit` -/
def highestOneBit (x : ℕ) : ℕ := if x = 0 then 0 else 2 ^ x.log2

/-- `round-up-pow-2` -/
def roundUpPow2 (x : ℕ) : ℕ :=
  let high := highestOneBit x
  if x = high then high else high <<< 1

/-- `every? zero?` over cells of the array, which has 256; `aget` throws beyond them. -/
def everyZero (gapArray : ℕ → Bool) : List ℕ → Option Bool
  | [] => some true
  | i :: cells => if 256 ≤ i then none else if gapArray i then some false else everyZero gapArray cells

/-- The filter of `aligned-gaps`. -/
def filterGaps (gapArray : ℕ → Bool) (gapSize : ℕ) : List ℕ → Option (List ℕ)
  | [] => some []
  | i :: starts =>
    (everyZero gapArray (List.range' i gapSize)).bind fun zero =>
      (filterGaps gapArray gapSize starts).map fun gaps => if zero then i :: gaps else gaps

/-- The first of the `aligned-gaps`. A range with step 0 repeats its start without end. -/
def takeGaps (gapArray : ℕ → Bool) (gapSize n : ℕ) : Option (List ℕ) :=
  if gapSize = 0 then some (List.replicate n 0)
  else
    (filterGaps gapArray gapSize
      ((List.range ((256 + gapSize - 1) / gapSize)).map (· * gapSize))).map (List.take n)

section Reorder

variable {α : Type*} (slots : α → ℕ) (ops : List α)

/-- One step of the reduction: gaps for the instructions of one length. -/
def placeLen (st : (ℕ → Bool) × List (α × ℕ)) (opLen : ℕ) :
    Option ((ℕ → Bool) × List (α × ℕ)) :=
  let opsOfLen := ops.filter fun op => slots op == opLen
  (takeGaps st.1 (roundUpPow2 opLen) opsOfLen.length).bind fun gaps =>
    if gaps.length < opsOfLen.length then none
    else
      some (fun i => st.1 i || gaps.any fun gap => decide (gap ≤ i) && decide (i < gap + opLen),
        st.2 ++ opsOfLen.zip gaps)

/-- The different lengths, from the longest down. -/
def lengths : List ℕ := (((ops.map slots).eraseDups).insertionSort (· ≤ ·)).reverse

/-- `reorder-microcode`: the instructions with their addresses, or none where it throws. -/
def reorderMicrocode : ReorderMethod → Option (List (α × ℕ))
  | .nop => some (ops.zip ((ops.map slots).scanl (· + ·) 0))
  | .align16 =>
    ((lengths slots ops).foldlM (placeLen slots ops) (fun _ => false, [])).bind fun st =>
      if st.2.any fun p => p.2 == 255 then none else some st.2

/-- The addresses of an instruction. -/
def addresses (p : α × ℕ) : Interval := ⟨p.2, slots p.1⟩

/-- All instructions have addresses, no two share one, and all are below 255. -/
structure Placed (placed : List (α × ℕ)) : Prop where
  all : (placed.map Prod.fst).Perm ops
  apart : placed.Pairwise fun p q => Interval.Apart (addresses slots p) (addresses slots q)
  below : ∀ p ∈ placed, ∀ i, (addresses slots p).Contains i → i ≤ 254

/-! ### When the addresses fit -/

/-- The gaps that the instructions of a length and of the longer ones need. -/
def gapsNeeded (opLen : ℕ) : ℕ :=
  ((ops.filter fun op => decide (opLen ≤ slots op)).map fun op =>
    Interval.blocks (roundUpPow2 opLen) (slots op)).sum

/-- What is left at the end of the ROM, by the instructions of some lengths. The last gap is
taken if it is left and all are needed. -/
def lastFree : List ℕ → ℕ → ℕ
  | [], free => free
  | opLen :: lens, free =>
    lastFree lens
      (if gapsNeeded slots ops opLen * roundUpPow2 opLen = 256 ∧ roundUpPow2 opLen ≤ free then
        roundUpPow2 opLen - opLen
      else free)

end Reorder

/-! ### Gaps -/

theorem roundUpPow2_eq {x : ℕ} (hx : x ≠ 0) : roundUpPow2 x = 2 ^ Nat.clog 2 x := by
  have hle := Nat.log2_self_le hx
  have hlt := Nat.lt_log2_self (n := x)
  rw [roundUpPow2, highestOneBit, if_neg hx]
  split_ifs with h
  · rw [h, Nat.clog_pow 2 _ Nat.one_lt_two, Nat.log2_two_pow]
  · have hclog : Nat.clog 2 x = x.log2 + 1 := by
      refine Nat.le_antisymm (Nat.clog_le_of_le_pow (Nat.le_of_lt hlt)) ?_
      exact (Nat.lt_clog_iff_pow_lt Nat.one_lt_two).mpr (Nat.lt_of_le_of_ne hle (Ne.symm h))
    rw [hclog, Nat.shiftLeft_eq, Nat.pow_one, Nat.pow_succ]

theorem le_roundUpPow2 (x : ℕ) : x ≤ roundUpPow2 x := by
  rcases Nat.eq_zero_or_pos x with rfl | hpos
  · exact Nat.zero_le _
  · rw [roundUpPow2_eq (Nat.ne_of_gt hpos)]
    exact Nat.le_pow_clog Nat.one_lt_two x

theorem roundUpPow2_dvd {x y : ℕ} (hx : x ≠ 0) (h : x ≤ y) : roundUpPow2 x ∣ roundUpPow2 y := by
  rw [roundUpPow2_eq hx, roundUpPow2_eq (by omega)]
  exact Nat.pow_dvd_pow 2 (Nat.clog_mono_right 2 h)

theorem roundUpPow2_dvd_256 {x : ℕ} (hx : x ≠ 0) (h : roundUpPow2 x ≤ 256) :
    roundUpPow2 x ∣ 256 := by
  rw [roundUpPow2_eq hx] at h ⊢
  exact Nat.pow_dvd_pow 2 ((Nat.pow_le_pow_iff_right Nat.one_lt_two).mp (h.trans_eq rfl : _ ≤ 2 ^ 8))

section Gaps

variable {gapArray : ℕ → Bool} {gapSize : ℕ}

theorem everyZero_eq {cells : List ℕ} (h : ∀ i ∈ cells, i < 256) :
    everyZero gapArray cells = some (cells.all fun i => !gapArray i) := by
  induction cells with
  | nil => rfl
  | cons i cells ih =>
    rw [List.forall_mem_cons] at h
    rw [everyZero, if_neg (Nat.not_le.mpr h.1), List.all_cons, ih h.2]
    cases gapArray i <;> rfl

theorem everyZero_ne_true {cells : List ℕ} {i : ℕ} (hi : i ∈ cells) (h : 256 ≤ i) :
    everyZero gapArray cells ≠ some true := by
  induction cells with
  | nil => exact absurd hi List.not_mem_nil
  | cons j cells ih =>
    rw [everyZero]
    split_ifs with hj
    · exact nofun
    · exact fun eq => Bool.false_ne_true (Option.some.inj eq)
    · rcases List.mem_cons.mp hi with rfl | hmem
      · exact absurd h hj
      · exact ih hmem

theorem filterGaps_eq {starts : List ℕ} (h : ∀ i ∈ starts, i + gapSize ≤ 256) :
    filterGaps gapArray gapSize starts =
      some (starts.filter fun i => (List.range' i gapSize).all fun j => !gapArray j) := by
  induction starts with
  | nil => rfl
  | cons i starts ih =>
    rw [List.forall_mem_cons] at h
    have hcells : ∀ j ∈ List.range' i gapSize, j < 256 := fun j hj =>
      Nat.lt_of_lt_of_le (List.mem_range'_1.mp hj).2 h.1
    rw [filterGaps, everyZero_eq hcells, ih h.2, Option.bind_some, Option.map_some, List.filter_cons]

/-- The block is free: none of its cells is taken. -/
def blockFree (gapArray : ℕ → Bool) (gapSize b : ℕ) : Bool :=
  (List.range' (b * gapSize) gapSize).all fun j => !gapArray j

theorem blockFree_iff {b : ℕ} (hpos : 0 < gapSize) :
    blockFree gapArray gapSize b = true ↔ ∀ i, i / gapSize = b → gapArray i = false := by
  simp only [blockFree, List.all_eq_true, List.mem_range'_1, Bool.not_eq_true']
  refine forall_congr' fun i => imp_congr_left ?_
  rw [Nat.div_eq_iff hpos]
  constructor
  · rintro ⟨hle, hlt⟩
    omega
  · rintro ⟨hle, hlt⟩
    omega

/-- The gaps of a size that divides the ROM are its free blocks. -/
theorem takeGaps_eq (hpos : 0 < gapSize) (hdvd : gapSize ∣ 256) (n : ℕ) :
    takeGaps gapArray gapSize n =
      some ((((List.range (256 / gapSize)).filter (blockFree gapArray gapSize)).take n).map
        (· * gapSize)) := by
  obtain ⟨m, hm⟩ := hdvd
  have hcount : (256 + gapSize - 1) / gapSize = m := by
    rw [hm, Nat.add_sub_assoc hpos, Nat.mul_add_div hpos, Nat.div_eq_of_lt (by omega), Nat.add_zero]
  have hcount' : 256 / gapSize = m := by rw [hm, Nat.mul_div_cancel_left m hpos]
  rw [takeGaps, if_neg (Nat.ne_of_gt hpos), hcount, hcount', filterGaps_eq, Option.map_some,
    List.filter_map, List.map_take]
  · rfl
  · intro i hi
    obtain ⟨b, hb, rfl⟩ := List.mem_map.mp hi
    rw [hm, ← Nat.succ_mul, Nat.mul_comm]
    exact Nat.mul_le_mul_left gapSize (List.mem_range.mp hb)

/-- There are no gaps of a size beyond the ROM. -/
theorem takeGaps_eq_nil (h : 256 < gapSize) {n : ℕ} {gaps : List ℕ}
    (hgaps : takeGaps gapArray gapSize n = some gaps) : gaps = [] := by
  have hcount : (256 + gapSize - 1) / gapSize = 1 := Nat.div_eq_of_lt_le (by omega) (by omega)
  rw [takeGaps, if_neg (by omega), hcount, List.range_one, List.map_cons, List.map_nil, Nat.zero_mul,
    filterGaps, filterGaps] at hgaps
  have hzero : everyZero gapArray (List.range' 0 gapSize) ≠ some true :=
    everyZero_ne_true (List.mem_range'_1.mpr ⟨Nat.zero_le 256, by omega⟩) (Nat.le_refl 256)
  -- the only candidate starts at 0 and reaches beyond the ROM, so it is never all zero
  cases hevery : everyZero gapArray (List.range' 0 gapSize) with
  | none =>
    rw [hevery] at hgaps
    cases hgaps
  | some zero =>
    cases zero with
    | true => exact absurd hevery hzero
    | false =>
      rw [hevery] at hgaps
      simpa using hgaps.symm

end Gaps

/-! ### The instructions of one length -/

section Stage

variable {α : Type*} (slots : α → ℕ) (ops : List α)

/-- The state when the instructions of at least a length are placed, the shortest in gaps of a
size: which cells are taken, and what is left at the end. -/
structure Packed (gapSize free bound : ℕ) (st : (ℕ → Bool) × List (α × ℕ)) : Prop where
  perm : (st.2.map Prod.fst).Perm (ops.filter fun op => decide (bound ≤ slots op))
  aligned : ∀ p ∈ st.2, gapSize ∣ p.2
  inside : ∀ p ∈ st.2, p.2 + slots p.1 ≤ 256
  apart : st.2.Pairwise fun p q => Interval.Apart (addresses slots p) (addresses slots q)
  taken : ∀ i, st.1 i = true ↔ ∃ p ∈ st.2, (addresses slots p).Contains i
  endFree : ∀ i < 256, 256 ≤ i + min free gapSize → st.1 i = false
  endTaken : free < gapSize → st.1 (255 - free) = true

variable {slots ops} {gapSize free bound opLen : ℕ} {st : (ℕ → Bool) × List (α × ℕ)}

theorem packed_nil (h : ∀ op ∈ ops, slots op < bound) :
    Packed slots ops 256 256 bound (fun _ => false, []) where
  perm := by
    rw [List.filter_eq_nil_iff.mpr fun op hop => by simpa using h op hop]
    exact .nil
  aligned := nofun
  inside := nofun
  apart := .nil
  taken _ := ⟨nofun, nofun⟩
  endFree _ _ _ := rfl
  endTaken h := absurd h (Nat.lt_irrefl 256)

/-- The free blocks, and those for the instructions that are placed. -/
theorem Packed.count_free (packed : Packed slots ops gapSize free bound st) {size : ℕ}
    (hpos : 0 < size) (hdvd : size ∣ gapSize) (hrom : size ∣ 256) :
    ((List.range (256 / size)).filter (blockFree st.1 size)).length +
      (st.2.map fun p => Interval.blocks size (slots p.1)).sum = 256 / size := by
  classical
  -- the instructions that are placed meet as many blocks as they need
  have met := Interval.card_met (m := 256 / size) (l := st.2.map (addresses slots)) hpos
    (List.forall_mem_map.mpr fun p hp => hdvd.trans (packed.aligned p hp))
    (List.forall_mem_map.mpr fun p hp => by
      rw [Nat.mul_div_cancel' hrom]
      exact packed.inside p hp)
    (List.pairwise_map.mpr packed.apart)
  rw [List.map_map] at met
  -- a block is free if none of them meets it
  have free_iff : ∀ b, blockFree st.1 size b = true ↔
      ¬ ∃ p ∈ st.2.map (addresses slots), p.Meets size b := by
    intro b
    rw [blockFree_iff hpos]
    constructor
    · rintro h ⟨_, hmem, i, hi, rfl⟩
      obtain ⟨p, hp, rfl⟩ := List.mem_map.mp hmem
      exact Bool.false_ne_true ((h i rfl).symm.trans ((packed.taken i).mpr ⟨p, hp, hi⟩))
    · intro h i hi
      rw [Bool.eq_false_iff]
      intro htaken
      obtain ⟨p, hp, hcontains⟩ := (packed.taken i).mp htaken
      exact h ⟨_, List.mem_map_of_mem hp, i, hcontains, hi⟩
  have count : ((List.range (256 / size)).filter (blockFree st.1 size)).length =
      ((Finset.range (256 / size)).filter fun b =>
        ¬ ∃ p ∈ st.2.map (addresses slots), p.Meets size b).card := by
    rw [length_filter_range]
    exact congrArg Finset.card (Finset.filter_congr fun b _ => free_iff b)
  have whole := Finset.card_filter_add_card_filter_not (s := Finset.range (256 / size))
    (fun b => ∃ p ∈ st.2.map (addresses slots), p.Meets size b)
  rw [met, Finset.card_range, ← count, Nat.add_comm] at whole
  exact whole

theorem filter_le_perm (hlt : opLen < bound)
    (next : ∀ op ∈ ops, slots op < bound → slots op ≤ opLen) :
    (ops.filter fun op => decide (opLen ≤ slots op)).Perm
      ((ops.filter fun op => decide (bound ≤ slots op)) ++
        ops.filter fun op => slots op == opLen) := by
  have longer : (ops.filter fun op => decide (opLen ≤ slots op)).filter
      (fun op => decide (bound ≤ slots op)) = ops.filter fun op => decide (bound ≤ slots op) := by
    rw [List.filter_filter]
    refine List.filter_congr fun op _ => ?_
    rw [← Bool.decide_and, decide_eq_decide]
    omega
  have ofLen : (ops.filter fun op => decide (opLen ≤ slots op)).filter
      (fun op => !decide (bound ≤ slots op)) = ops.filter fun op => slots op == opLen := by
    rw [List.filter_filter]
    refine List.filter_congr fun op hop => ?_
    have := next op hop
    rw [Bool.eq_iff_iff, Bool.and_eq_true, Bool.not_eq_true', decide_eq_false_iff_not,
      decide_eq_true_iff, beq_iff_eq]
    omega
  have perm := (List.filter_append_perm (fun op => decide (bound ≤ slots op))
    (ops.filter fun op => decide (opLen ≤ slots op))).symm
  rwa [longer, ofLen] at perm

/-- The gaps that are needed: those for the instructions that are placed, and one for each of
the length. -/
theorem Packed.gapsNeeded_eq (packed : Packed slots ops gapSize free bound st) (hpos : 0 < opLen)
    (hlt : opLen < bound) (next : ∀ op ∈ ops, slots op < bound → slots op ≤ opLen) :
    gapsNeeded slots ops opLen =
      (st.2.map fun p => Interval.blocks (roundUpPow2 opLen) (slots p.1)).sum +
        (ops.filter fun op => slots op == opLen).length := by
  -- each instruction of the length needs one gap, since the gap is at least as long
  have ones : ((ops.filter fun op => slots op == opLen).map fun op =>
      Interval.blocks (roundUpPow2 opLen) (slots op)).sum =
        (ops.filter fun op => slots op == opLen).length := by
    refine (List.sum_eq_card_nsmul _ 1 ?_).trans ?_
    · refine List.forall_mem_map.mpr fun op hop => ?_
      rw [eq_of_beq (List.mem_filter.mp hop).2]
      exact Interval.blocks_eq_one hpos (le_roundUpPow2 opLen)
    · rw [List.length_map, nsmul_one, Nat.cast_id]
  -- the longer ones are those that are placed already
  have placed : ((ops.filter fun op => decide (bound ≤ slots op)).map fun op =>
      Interval.blocks (roundUpPow2 opLen) (slots op)).sum =
        (st.2.map fun p => Interval.blocks (roundUpPow2 opLen) (slots p.1)).sum := by
    rw [← (packed.perm.map fun op => Interval.blocks (roundUpPow2 opLen) (slots op)).sum_eq,
      List.map_map]
    rfl
  rw [gapsNeeded, ((filter_le_perm hlt next).map _).sum_eq, List.map_append, List.sum_append, ones,
    placed]

/-- The last block is free if it is left at the end. -/
theorem Packed.blockFree_last (packed : Packed slots ops gapSize free bound st) {size m : ℕ}
    (hpos : 0 < size) (hle : size ≤ gapSize) (hrom : size * (m + 1) = 256) :
    blockFree st.1 size m = true ↔ size ≤ free := by
  rw [Nat.mul_succ] at hrom
  rw [blockFree_iff hpos]
  constructor
  · intro h
    by_contra! hlt
    have htaken := packed.endTaken (Nat.lt_of_lt_of_le hlt hle)
    have hblock : (255 - free) / size = m := by
      rw [Nat.div_eq_iff hpos, Nat.mul_comm]
      omega
    exact Bool.false_ne_true ((h _ hblock).symm.trans htaken)
  · intro hfree i hi
    rw [Nat.div_eq_iff hpos, Nat.mul_comm] at hi
    exact packed.endFree i (by omega) (by omega)

/-- The gaps for a number of instructions. -/
def newGaps (gapArray : ℕ → Bool) (size n : ℕ) : List ℕ :=
  (((List.range (256 / size)).filter (blockFree gapArray size)).take n).map (· * size)

theorem mem_newGaps {gapArray : ℕ → Bool} {size n gap : ℕ} : gap ∈ newGaps gapArray size n ↔
    ∃ b ∈ ((List.range (256 / size)).filter (blockFree gapArray size)).take n, b * size = gap :=
  List.mem_map

theorem exists_of_mem_newGaps {gapArray : ℕ → Bool} {size n gap : ℕ}
    (h : gap ∈ newGaps gapArray size n) :
    ∃ b < 256 / size, blockFree gapArray size b = true ∧ b * size = gap := by
  obtain ⟨b, hb, rfl⟩ := mem_newGaps.mp h
  obtain ⟨hrange, hfree⟩ := List.mem_filter.mp (List.mem_of_mem_take hb)
  exact ⟨b, List.mem_range.mp hrange, hfree, rfl⟩

/-- Gaps are at least their size apart. -/
theorem pairwise_newGaps (gapArray : ℕ → Bool) (size n : ℕ) :
    (newGaps gapArray size n).Pairwise fun a b => a + size ≤ b := by
  rw [newGaps, List.pairwise_map]
  refine List.Pairwise.imp (fun {a b} hlt => ?_) ((List.pairwise_lt_range.filter _).take)
  rw [← Nat.succ_mul]
  exact Nat.mul_le_mul_right size hlt

/-- A cell of a gap that is taken lies in its block. -/
theorem div_eq_of_mem_gap {size b i : ℕ} (hle : opLen ≤ size) (hlow : b * size ≤ i)
    (hhigh : i < b * size + opLen) : i / size = b := by
  rw [Nat.div_eq_iff (by omega)]
  omega

/-- The step throws if the gaps are larger than the ROM. -/
theorem placeLen_eq_none (h : 256 < roundUpPow2 opLen) (hmem : ∃ op ∈ ops, slots op = opLen) :
    placeLen slots ops st opLen = none := by
  rw [placeLen]
  cases hgaps : takeGaps st.1 (roundUpPow2 opLen)
      (ops.filter fun op => slots op == opLen).length with
  | none => rfl
  | some gaps =>
    obtain ⟨op, hop, hlen⟩ := hmem
    have hpos : 0 < (ops.filter fun op => slots op == opLen).length :=
      List.length_pos_of_mem (List.mem_filter.mpr ⟨hop, beq_iff_eq.mpr hlen⟩)
    rw [takeGaps_eq_nil h hgaps]
    exact if_pos hpos

section Place

variable (packed : Packed slots ops gapSize free bound st) (hpos : 0 < opLen)
  (hdvd : roundUpPow2 opLen ∣ gapSize) (hrom : gapSize ∣ 256)

include packed hpos hdvd hrom

/-- The last gap is taken if it is left, and all are needed. -/
theorem Packed.last_taken_iff (hlt : opLen < bound)
    (next : ∀ op ∈ ops, slots op < bound → slots op ≤ opLen)
    (hroom : gapsNeeded slots ops opLen * roundUpPow2 opLen ≤ 256) :
    256 - roundUpPow2 opLen ∈ newGaps st.1 (roundUpPow2 opLen)
        (ops.filter fun op => slots op == opLen).length ↔
      gapsNeeded slots ops opLen * roundUpPow2 opLen = 256 ∧ roundUpPow2 opLen ≤ free := by
  have hsize : 0 < roundUpPow2 opLen := Nat.lt_of_lt_of_le hpos (le_roundUpPow2 opLen)
  have hcount := packed.count_free hsize hdvd (hdvd.trans hrom)
  have hneeded := packed.gapsNeeded_eq hpos hlt next
  have hgap : 0 < gapSize := Nat.pos_of_dvd_of_pos hrom (by decide)
  -- the ROM is `m` blocks of this size, and the last gap is block `m - 1`
  obtain ⟨m, hm⟩ := hdvd.trans hrom
  generalize roundUpPow2 opLen = size at *
  have hdiv : 256 / size = m := by rw [hm, Nat.mul_div_cancel_left m hsize]
  obtain ⟨k, rfl⟩ : ∃ k, m = k + 1 := by
    refine Nat.exists_eq_succ_of_ne_zero fun hzero => ?_
    rw [hzero] at hm
    cases hm
  have hlast : 256 - size = k * size := by
    rw [hm, Nat.mul_succ, Nat.add_sub_cancel, Nat.mul_comm]
  rw [mem_newGaps, hlast, hdiv]
  rw [hdiv] at hcount
  have hle : gapsNeeded slots ops opLen ≤ k + 1 := by
    rw [hm, Nat.mul_comm] at hroom
    exact Nat.le_of_mul_le_mul_left hroom hsize
  have hall : gapsNeeded slots ops opLen * size = 256 ↔ gapsNeeded slots ops opLen = k + 1 := by
    rw [hm, Nat.mul_comm]
    exact Nat.mul_right_inj (Nat.ne_of_gt hsize)
  rw [hall, ← packed.blockFree_last hsize (Nat.le_of_dvd hgap hdvd) hm.symm]
  -- the last block is among the first free ones taken only if all free ones are
  have key := last_mem_take_iff (blockFree st.1 size) k (ops.filter fun op => slots op == opLen).length
  constructor
  · rintro ⟨b, hb, heq⟩
    obtain rfl := Nat.eq_of_mul_eq_mul_right hsize heq
    obtain ⟨hfree, hlen⟩ := key.mp hb
    exact ⟨by omega, hfree⟩
  · rintro ⟨heq, hfree⟩
    exact ⟨k, key.mpr ⟨hfree, by omega⟩, rfl⟩

/-- The state after the instructions of a length have their gaps. -/
theorem Packed.place (hlt : opLen < bound)
    (next : ∀ op ∈ ops, slots op < bound → slots op ≤ opLen)
    (hroom : gapsNeeded slots ops opLen * roundUpPow2 opLen ≤ 256) {new : List (α × ℕ)}
    (hfst : new.map Prod.fst = ops.filter fun op => slots op == opLen)
    (hsnd : new.map Prod.snd = newGaps st.1 (roundUpPow2 opLen)
      (ops.filter fun op => slots op == opLen).length) :
    Packed slots ops (roundUpPow2 opLen)
      (if gapsNeeded slots ops opLen * roundUpPow2 opLen = 256 ∧ roundUpPow2 opLen ≤ free then
        roundUpPow2 opLen - opLen
      else free) opLen
      (fun i => st.1 i || (new.map Prod.snd).any fun gap =>
        decide (gap ≤ i) && decide (i < gap + opLen), st.2 ++ new) := by
  have last := packed.last_taken_iff hpos hdvd hrom hlt next hroom
  have hle := le_roundUpPow2 opLen
  have hsize : 0 < roundUpPow2 opLen := Nat.lt_of_lt_of_le hpos hle
  have hgap : 0 < gapSize := Nat.pos_of_dvd_of_pos hrom (by decide)
  have hsizeGap := Nat.le_of_dvd hgap hdvd
  have hsize256 := Nat.le_of_dvd (by decide) (hdvd.trans hrom)
  have len : ∀ p ∈ new, slots p.1 = opLen := by
    intro p hp
    have hmem : p.1 ∈ ops.filter fun op => slots op == opLen := hfst ▸ List.mem_map_of_mem hp
    exact eq_of_beq (List.mem_filter.mp hmem).2
  obtain ⟨m, hm⟩ := hdvd.trans hrom
  have hdiv : 256 / roundUpPow2 opLen = m := by rw [hm, Nat.mul_div_cancel_left m hsize]
  -- every new gap is a block that was free
  have block : ∀ gap ∈ new.map Prod.snd, ∃ b < m, blockFree st.1 (roundUpPow2 opLen) b = true ∧
      b * roundUpPow2 opLen = gap := by
    intro gap hgap
    rw [hsnd] at hgap
    have := exists_of_mem_newGaps hgap
    rwa [hdiv] at this
  have fits : ∀ b < m, b * roundUpPow2 opLen + roundUpPow2 opLen ≤ 256 := by
    intro b hb
    rw [hm, ← Nat.succ_mul, Nat.mul_comm]
    exact Nat.mul_le_mul_left _ hb
  have sep : new.Pairwise fun p q => p.2 + roundUpPow2 opLen ≤ q.2 := by
    rw [← List.pairwise_map (f := Prod.snd) (R := fun a b => a + roundUpPow2 opLen ≤ b), hsnd]
    exact pairwise_newGaps _ _ _
  -- the cells marked are the addresses of the new instructions
  have marked : ∀ i, ((new.map Prod.snd).any fun gap =>
      decide (gap ≤ i) && decide (i < gap + opLen)) = true ↔
        ∃ p ∈ new, (addresses slots p).Contains i := by
    intro i
    rw [List.any_map, List.any_eq_true]
    refine exists_congr fun p => and_congr_right fun hp => ?_
    rw [Function.comp, Bool.and_eq_true, decide_eq_true_iff, decide_eq_true_iff, ← len p hp]
    exact Iff.rfl
  -- Of the last block cells are taken only if it is the last gap.
  have touched : ∀ i < 256, 256 - roundUpPow2 opLen ≤ i → ((new.map Prod.snd).any fun gap =>
      decide (gap ≤ i) && decide (i < gap + opLen)) = true →
        256 - roundUpPow2 opLen ∈ newGaps st.1 (roundUpPow2 opLen)
          (ops.filter fun op => slots op == opLen).length ∧ i < 256 - roundUpPow2 opLen + opLen := by
    intro i hi hlow hany
    obtain ⟨gap, hmem, hgap⟩ := List.any_eq_true.mp hany
    rw [Bool.and_eq_true, decide_eq_true_iff, decide_eq_true_iff] at hgap
    obtain ⟨b, hb, -, rfl⟩ := block gap hmem
    have hlast : b * roundUpPow2 opLen = 256 - roundUpPow2 opLen := by
      have hbm : b + 1 = m := by
        by_contra hne
        have := fits (b + 1) (by omega)
        rw [Nat.succ_mul] at this
        omega
      rw [hm, ← hbm, Nat.mul_succ, Nat.add_sub_cancel, Nat.mul_comm]
    rw [hlast] at hgap
    exact ⟨hlast ▸ hsnd ▸ hmem, hgap.2⟩
  refine
    { perm := ?_
      aligned := ?_
      inside := ?_
      apart := ?_
      taken := ?_
      endFree := ?_
      endTaken := ?_ }
  -- the instructions of at least `opLen` are the longer ones and those of the length
  · rw [List.map_append, hfst]
    exact (packed.perm.append_right _).trans (filter_le_perm hlt next).symm
  · rintro p hp
    rcases List.mem_append.mp hp with hold | hnew
    · exact hdvd.trans (packed.aligned p hold)
    · obtain ⟨b, -, -, hb⟩ := block p.2 (List.mem_map_of_mem hnew)
      exact ⟨b, by rw [← hb, Nat.mul_comm]⟩
  · rintro p hp
    rcases List.mem_append.mp hp with hold | hnew
    · exact packed.inside p hold
    · obtain ⟨b, hlt, -, hb⟩ := block p.2 (List.mem_map_of_mem hnew)
      have := fits b hlt
      rw [← hb, len p hnew]
      omega
  -- two new instructions are apart as their gaps are, a new one from an old one since its block
  -- was free
  · refine List.pairwise_append.mpr ⟨packed.apart, ?_, ?_⟩
    · refine List.Pairwise.imp_of_mem (fun {p q} hp _ hpq i hi hi' => ?_) sep
      have h₁ : i < p.2 + slots p.1 := hi.2
      have h₂ : q.2 ≤ i := hi'.1
      rw [len p hp] at h₁
      omega
    · intro p hp q hq i hi hi'
      obtain ⟨b, -, hfree, hb⟩ := block q.2 (List.mem_map_of_mem hq)
      have h₁ : q.2 ≤ i := hi'.1
      have h₂ : i < q.2 + slots q.1 := hi'.2
      rw [← hb] at h₁ h₂
      rw [len q hq] at h₂
      have hcell := (blockFree_iff hsize).mp hfree i (div_eq_of_mem_gap hle h₁ h₂)
      exact Bool.false_ne_true (hcell.symm.trans ((packed.taken i).mpr ⟨p, hp, hi⟩))
  · intro i
    rw [Bool.or_eq_true, packed.taken, marked]
    simp only [List.mem_append, or_and_right, exists_or]
  · intro i hi hend
    rw [Bool.or_eq_false_iff]
    split_ifs at hend with hcond
    · refine ⟨packed.endFree i hi (by omega), Bool.eq_false_iff.mpr fun hany => ?_⟩
      have := (touched i hi (by omega) hany).2
      omega
    · refine ⟨packed.endFree i hi (by omega), Bool.eq_false_iff.mpr fun hany => ?_⟩
      exact hcond (last.mp (touched i hi (by omega) hany).1)
  -- the last gap, if it is taken, is taken up to the cells that it leaves
  · intro hend
    split_ifs at hend ⊢ with hcond
    · have hmem := last.mpr hcond
      rw [← hsnd] at hmem
      refine Bool.or_eq_true_iff.mpr (.inr (List.any_eq_true.mpr ⟨_, hmem, ?_⟩))
      rw [Bool.and_eq_true, decide_eq_true_iff, decide_eq_true_iff]
      omega
    · exact Bool.or_eq_true_iff.mpr (.inl (packed.endTaken (Nat.lt_of_lt_of_le hend hsizeGap)))

/-- The step throws if more gaps are needed than the ROM has, and else places the
instructions of the length. -/
theorem Packed.placeLen_spec (hlt : opLen < bound)
    (next : ∀ op ∈ ops, slots op < bound → slots op ≤ opLen) :
    (256 < gapsNeeded slots ops opLen * roundUpPow2 opLen →
      placeLen slots ops st opLen = none) ∧
    (gapsNeeded slots ops opLen * roundUpPow2 opLen ≤ 256 → ∃ taken new,
      placeLen slots ops st opLen = some (taken, st.2 ++ new) ∧
        Packed slots ops (roundUpPow2 opLen)
          (if gapsNeeded slots ops opLen * roundUpPow2 opLen = 256 ∧ roundUpPow2 opLen ≤ free then
            roundUpPow2 opLen - opLen
          else free) opLen (taken, st.2 ++ new) ∧
        ∀ p ∈ new, slots p.1 = opLen ∧ st.1 p.2 = false) := by
  have hsize : 0 < roundUpPow2 opLen := Nat.lt_of_lt_of_le hpos (le_roundUpPow2 opLen)
  have hcount := packed.count_free hsize hdvd (hdvd.trans hrom)
  have hneeded := packed.gapsNeeded_eq hpos hlt next
  have hgaps := @takeGaps_eq st.1 _ hsize (hdvd.trans hrom)
    (ops.filter fun op => slots op == opLen).length
  have hlen : (newGaps st.1 (roundUpPow2 opLen)
      (ops.filter fun op => slots op == opLen).length).length =
        min (ops.filter fun op => slots op == opLen).length
          ((List.range (256 / roundUpPow2 opLen)).filter
            (blockFree st.1 (roundUpPow2 opLen))).length := by
    rw [newGaps, List.length_map, List.length_take]
  have hroom : gapsNeeded slots ops opLen * roundUpPow2 opLen ≤ 256 ↔
      gapsNeeded slots ops opLen ≤ 256 / roundUpPow2 opLen :=
    (Nat.le_div_iff_mul_le hsize).symm
  -- the gaps that the step takes are the first free blocks
  have step : placeLen slots ops st opLen =
      if (newGaps st.1 (roundUpPow2 opLen) (ops.filter fun op => slots op == opLen).length).length <
        (ops.filter fun op => slots op == opLen).length then none
      else some (fun i => st.1 i || (newGaps st.1 (roundUpPow2 opLen)
        (ops.filter fun op => slots op == opLen).length).any fun gap =>
          decide (gap ≤ i) && decide (i < gap + opLen), st.2 ++
            (ops.filter fun op => slots op == opLen).zip (newGaps st.1 (roundUpPow2 opLen)
              (ops.filter fun op => slots op == opLen).length)) := by
    rw [placeLen, hgaps]
    rfl
  rw [step, hlen]
  constructor
  · intro hmore
    rw [← Nat.not_le, hroom] at hmore
    exact if_pos (by omega)
  · intro hfits
    have hfits' := hroom.mp hfits
    -- there are enough gaps, so each instruction of the length gets one
    have hfst : ((ops.filter fun op => slots op == opLen).zip (newGaps st.1 (roundUpPow2 opLen)
        (ops.filter fun op => slots op == opLen).length)).map Prod.fst =
          ops.filter fun op => slots op == opLen :=
      List.map_fst_zip (by rw [hlen]; omega)
    have hsnd : ((ops.filter fun op => slots op == opLen).zip (newGaps st.1 (roundUpPow2 opLen)
        (ops.filter fun op => slots op == opLen).length)).map Prod.snd =
          newGaps st.1 (roundUpPow2 opLen) (ops.filter fun op => slots op == opLen).length :=
      List.map_snd_zip (by rw [hlen]; omega)
    refine ⟨_, _, if_neg (by omega), ?_, fun p hp => ?_⟩
    · have := packed.place hpos hdvd hrom hlt next hfits hfst hsnd
      rwa [hsnd] at this
    · obtain ⟨hop, hgap⟩ := List.of_mem_zip hp
      refine ⟨eq_of_beq (List.mem_filter.mp hop).2, ?_⟩
      obtain ⟨b, -, hfree, hb⟩ := exists_of_mem_newGaps hgap
      exact (blockFree_iff hsize).mp hfree p.2 (by rw [← hb, Nat.mul_div_cancel _ hsize])

end Place

theorem gapsNeeded_pos (hpos : 0 < opLen) (hmem : ∃ op ∈ ops, slots op = opLen) :
    0 < gapsNeeded slots ops opLen := by
  obtain ⟨op, hop, rfl⟩ := hmem
  have hone := Interval.blocks_eq_one hpos (le_roundUpPow2 (slots op))
  have hin : op ∈ ops.filter fun op' => decide (slots op ≤ slots op') :=
    List.mem_filter.mpr ⟨hop, decide_eq_true (Nat.le_refl (slots op))⟩
  refine Nat.lt_of_lt_of_le Nat.zero_lt_one (hone.symm.trans_le ?_)
  exact List.single_le_sum (fun _ _ => Nat.zero_le _) _ (List.mem_map.mpr ⟨op, hin, rfl⟩)

/-- The steps for some lengths, from the longest down. -/
theorem Packed.foldlM_spec {lens : List ℕ} (sorted : lens.Pairwise (· > ·)) {least : ℕ}
    (hleast : 0 < least) (hlow : ∀ l ∈ lens, least ≤ l) (hmem : ∀ l ∈ lens, ∃ op ∈ ops, slots op = l)
    (packed : Packed slots ops gapSize free bound st) (hbound : ∀ l ∈ lens, l < bound)
    (next : ∀ op ∈ ops, slots op < bound → slots op ∈ lens ∨ slots op < least)
    (hdvd : ∀ l ∈ lens, roundUpPow2 l ≤ 256 → roundUpPow2 l ∣ gapSize) (hrom : gapSize ∣ 256) :
    ((∃ l ∈ lens, 256 < gapsNeeded slots ops l * roundUpPow2 l) →
      lens.foldlM (placeLen slots ops) st = none) ∧
    ((∀ l ∈ lens, gapsNeeded slots ops l * roundUpPow2 l ≤ 256) → ∃ gapSize' bound' st',
      lens.foldlM (placeLen slots ops) st = some st' ∧
        Packed slots ops gapSize' (lastFree slots ops lens free) bound' st' ∧
        (gapSize' = gapSize ∨ ∃ l ∈ lens, gapSize' = roundUpPow2 l) ∧ gapSize' ∣ 256 ∧
        (∀ op ∈ ops, slots op < bound' → slots op < least) ∧
        (bound' = bound ∨ bound' ∈ lens)) := by
  -- by induction on the lengths: the bound comes down to each of them, and the gaps of the next
  -- one divide its gaps
  induction lens generalizing gapSize free bound st with
  | nil =>
    refine ⟨fun ⟨l, hl, _⟩ => absurd hl List.not_mem_nil, fun _ => ?_⟩
    exact ⟨gapSize, bound, st, rfl, packed, .inl rfl, hrom,
      fun op hop hlt => (next op hop hlt).resolve_left List.not_mem_nil, .inl rfl⟩
  | cons l lens ih =>
    rw [List.pairwise_cons] at sorted
    rw [List.forall_mem_cons] at hlow hmem hbound hdvd
    have hpos : 0 < l := Nat.lt_of_lt_of_le hleast hlow.1
    have hnext : ∀ op ∈ ops, slots op < bound → slots op ≤ l := by
      intro op hop hlt
      rcases next op hop hlt with hin | hless
      · rcases List.mem_cons.mp hin with heq | hrest
        · exact Nat.le_of_eq heq
        · exact Nat.le_of_lt (sorted.1 _ hrest)
      · exact Nat.le_of_lt (Nat.lt_of_lt_of_le hless hlow.1)
    have hneeded := gapsNeeded_pos hpos hmem.1
    -- the step throws if the length itself needs too much, else the rest decides
    by_cases hmore : 256 < gapsNeeded slots ops l * roundUpPow2 l
    · refine ⟨fun _ => ?_, fun hall => absurd (hall l List.mem_cons_self) (Nat.not_le.mpr hmore)⟩
      have hnone : placeLen slots ops st l = none := by
        by_cases hsize : 256 < roundUpPow2 l
        · exact placeLen_eq_none hsize hmem.1
        · exact (packed.placeLen_spec hpos (hdvd.1 (Nat.not_lt.mp hsize)) hrom hbound.1 hnext).1 hmore
      rw [List.foldlM_cons, hnone]
      rfl
    · have hsize : roundUpPow2 l ≤ 256 :=
        Nat.le_trans (Nat.le_mul_of_pos_left _ hneeded) (Nat.not_lt.mp hmore)
      obtain ⟨taken, new, hplace, hpacked, -⟩ :=
        (packed.placeLen_spec hpos (hdvd.1 hsize) hrom hbound.1 hnext).2 (Nat.not_lt.mp hmore)
      have hrest := ih sorted.2 hlow.2 hmem.2 hpacked sorted.1
        (fun op hop hlt => (next op hop (Nat.lt_trans hlt hbound.1)).imp_left fun hin =>
          (List.mem_cons.mp hin).resolve_left (Nat.ne_of_lt hlt))
        (fun l' hl' _ => roundUpPow2_dvd
          (Nat.ne_of_gt (Nat.lt_of_lt_of_le hleast (hlow.2 l' hl'))) (Nat.le_of_lt (sorted.1 l' hl')))
        ((hdvd.1 hsize).trans hrom)
      rw [List.foldlM_cons, hplace]
      constructor
      · rintro ⟨l', hl', hmore'⟩
        rcases List.mem_cons.mp hl' with rfl | hin
        · exact absurd hmore' hmore
        · exact hrest.1 ⟨l', hin, hmore'⟩
      · intro hall
        obtain ⟨gapSize', bound', st', hfold, hpacked', hsize', hrom', hless, hbound'⟩ :=
          hrest.2 (List.forall_mem_cons.mp hall).2
        refine ⟨gapSize', bound', st', hfold, hpacked', .inr ?_, hrom', hless, .inr ?_⟩
        · rcases hsize' with rfl | ⟨l', hl', rfl⟩
          · exact ⟨l, List.mem_cons_self, rfl⟩
          · exact ⟨l', List.mem_cons_of_mem l hl', rfl⟩
        · rcases hbound' with rfl | hin
          · exact List.mem_cons_self
          · exact List.mem_cons_of_mem l hin

/-! ### The whole placement -/

theorem mem_lengths {l : ℕ} : l ∈ lengths slots ops ↔ ∃ op ∈ ops, slots op = l := by
  rw [lengths, List.mem_reverse, List.mem_insertionSort, List.mem_eraseDups, List.mem_map]

theorem sorted_lengths : (lengths slots ops).Pairwise (· > ·) := by
  rw [lengths, List.pairwise_reverse]
  have sorted := List.pairwise_insertionSort (· ≤ ·) (ops.map slots).eraseDups
  have nodup : ((ops.map slots).eraseDups.insertionSort (· ≤ ·)).Nodup :=
    (List.perm_insertionSort (· ≤ ·) _).nodup_iff.mpr (nodup_eraseDups _)
  exact (sorted.and nodup).imp fun h => Nat.lt_of_le_of_ne h.1 h.2

/-- A list from the largest down is that of the large numbers, and then the others. -/
theorem filter_append_of_sorted {l : List ℕ} (sorted : l.Pairwise (· > ·)) (n : ℕ) :
    l = (l.filter fun a => decide (n ≤ a)) ++ l.filter fun a => decide (a < n) := by
  induction l with
  | nil => rfl
  | cons a l ih =>
    rw [List.pairwise_cons] at sorted
    rcases Nat.lt_or_ge a n with hlt | hge
    · have hall : ∀ b ∈ a :: l, b < n := List.forall_mem_cons.mpr
        ⟨hlt, fun b hb => Nat.lt_trans (sorted.1 b hb) hlt⟩
      rw [List.filter_eq_nil_iff.mpr, List.filter_eq_self.mpr, List.nil_append]
      · exact fun b hb => decide_eq_true (hall b hb)
      · exact fun b hb h => absurd (hall b hb) (Nat.not_lt.mpr (of_decide_eq_true h))
    · have hpos : decide (n ≤ a) = true := decide_eq_true hge
      have hneg : ¬ decide (a < n) = true := fun h => Nat.not_lt.mpr hge (of_decide_eq_true h)
      rw [List.filter_cons, if_pos hpos, List.filter_cons, if_neg hneg, List.cons_append,
        ← ih sorted.2]

variable (slots ops) in
/-- The state when all instructions that have slots are placed, by what the longer ones left at
the end: if nothing, then one of them has the last address. -/
structure Outcome (free : ℕ) (st : (ℕ → Bool) × List (α × ℕ)) : Prop where
  packed : ∃ gapSize left, Packed slots ops gapSize left 1 st
  full : free = 0 → st.1 255 = true ∧ ∀ p ∈ st.2, p.2 ≠ 255
  left : free ≠ 0 → st.1 255 = true → ∃ p ∈ st.2, p.2 = 255

/-- Without instructions of one slot. -/
theorem Packed.outcome (packed : Packed slots ops gapSize free bound st) (heven : 2 ∣ gapSize)
    (hrom : gapSize ∣ 256) (hbound : 1 ≤ bound)
    (hless : ∀ op ∈ ops, slots op < bound → slots op < 1) :
    Outcome slots ops free st where
  packed := by
    refine ⟨gapSize, free, { packed with perm := ?_ }⟩
    have hfilter : ops.filter (fun op => decide (1 ≤ slots op)) =
        ops.filter fun op => decide (bound ≤ slots op) := by
      refine List.filter_congr fun op hop => ?_
      have := hless op hop
      rw [decide_eq_decide]
      omega
    rw [hfilter]
    exact packed.perm
  full hfree := by
    have hgap : 0 < gapSize := Nat.pos_of_dvd_of_pos hrom (by decide)
    have htaken := packed.endTaken (by omega)
    rw [hfree] at htaken
    refine ⟨htaken, fun p hp h => ?_⟩
    have := heven.trans (packed.aligned p hp)
    omega
  left hfree htaken := by
    have hgap : 0 < gapSize := Nat.pos_of_dvd_of_pos hrom (by decide)
    rw [packed.endFree 255 (by decide) (by omega)] at htaken
    cases htaken

/-- With instructions of one slot. -/
theorem Packed.outcome_placeLen (packed : Packed slots ops gapSize free bound st)
    (heven : 2 ∣ gapSize) (hrom : gapSize ∣ 256) (hbound : 1 < bound)
    (hless : ∀ op ∈ ops, slots op < bound → slots op ≤ 1)
    (hfits : gapsNeeded slots ops 1 * roundUpPow2 1 ≤ 256) :
    ∃ st', placeLen slots ops st 1 = some st' ∧ Outcome slots ops free st' := by
  have hone : roundUpPow2 1 = 1 := rfl
  obtain ⟨taken, new, hplace, hpacked, hnew⟩ :=
    (packed.placeLen_spec Nat.zero_lt_one (hone ▸ Nat.one_dvd gapSize) hrom hbound hless).2 hfits
  rw [hone] at hpacked
  refine ⟨_, hplace, ⟨1, _, hpacked⟩, fun hfree => ?_, fun hfree htaken => ?_⟩
  · -- The cell is taken before, by an instruction that starts at an even address.
    have hgap : 0 < gapSize := Nat.pos_of_dvd_of_pos hrom (by decide)
    have hold := packed.endTaken (by omega)
    rw [hfree] at hold
    constructor
    · obtain ⟨p, hp, hcontains⟩ := (packed.taken 255).mp hold
      exact (hpacked.taken 255).mpr ⟨p, List.mem_append_left new hp, hcontains⟩
    · intro p hp h
      rcases List.mem_append.mp hp with hp | hp
      · have := heven.trans (packed.aligned p hp)
        omega
      · have := (hnew p hp).2
        rw [h] at this
        exact Bool.false_ne_true (this.symm.trans hold)
  · have hgap : 0 < gapSize := Nat.pos_of_dvd_of_pos hrom (by decide)
    have hold := packed.endFree 255 (by decide) (by omega)
    obtain ⟨p, hp, hcontains⟩ := (hpacked.taken 255).mp htaken
    rcases List.mem_append.mp hp with hmem | hmem
    · exact absurd ((packed.taken 255).mpr ⟨p, hmem, hcontains⟩) (by rw [hold]; exact Bool.false_ne_true)
    · refine ⟨p, hp, ?_⟩
      have h₁ : p.2 ≤ 255 := hcontains.1
      have h₂ : 255 < p.2 + slots p.1 := hcontains.2
      rw [(hnew p hmem).1] at h₂
      omega

/-- Instructions without slots are placed at the start. -/
theorem placeLen_zero : ∃ zeros, placeLen slots ops st 0 = some (st.1, st.2 ++ zeros) ∧
    zeros.map Prod.fst = (ops.filter fun op => slots op == 0) ∧ ∀ p ∈ zeros, p.2 = 0 := by
  have htake : takeGaps st.1 (roundUpPow2 0) (ops.filter fun op => slots op == 0).length =
      some (List.replicate (ops.filter fun op => slots op == 0).length 0) := rfl
  refine ⟨(ops.filter fun op => slots op == 0).zip
    (List.replicate (ops.filter fun op => slots op == 0).length 0), ?_, ?_, fun p hp => ?_⟩
  · rw [placeLen, htake, Option.bind_some, List.length_replicate, if_neg (Nat.lt_irrefl _)]
    refine congrArg some (Prod.ext (funext fun i => ?_) rfl)
    have hnone : ∀ gap, (decide (gap ≤ i) && decide (i < gap + 0)) = false := by
      intro gap
      rw [← Bool.decide_and, decide_eq_false_iff_not]
      omega
    have hany : ((List.replicate (ops.filter fun op => slots op == 0).length 0).any fun gap =>
        decide (gap ≤ i) && decide (i < gap + 0)) = false :=
      List.any_eq_false.mpr fun gap _ => Bool.eq_false_iff.mp (hnone gap)
    exact (congrArg (st.1 i || ·) hany).trans (Bool.or_false _)
  · exact List.map_fst_zip (by rw [List.length_replicate])
  · exact List.eq_of_mem_replicate (List.of_mem_zip hp).2

/-- The whole placement is refused, or as it should be, if something was left at the end. -/
theorem Outcome.placed_iff (h : Outcome slots ops free st)
    {zeros : List (α × ℕ)}
    (hfst : zeros.map Prod.fst = ops.filter fun op => slots op == 0) (hsnd : ∀ p ∈ zeros, p.2 = 0) :
    ((st.2 ++ zeros).any (fun p => p.2 == 255) = true ∨ Placed slots ops (st.2 ++ zeros)) ↔
      free ≠ 0 := by
  obtain ⟨gapSize, left, packed⟩ := h.packed
  -- an instruction without slots has no address, so it shares none
  have noSlots : ∀ p ∈ zeros, slots p.1 = 0 := by
    intro p hp
    have hmem : p.1 ∈ ops.filter fun op => slots op == 0 := hfst ▸ List.mem_map_of_mem hp
    exact eq_of_beq (List.mem_filter.mp hmem).2
  have empty : ∀ p ∈ zeros, ∀ i, ¬ (addresses slots p).Contains i := by
    rintro p hp i ⟨hlow, hhigh⟩
    have h₁ : p.2 ≤ i := hlow
    have h₂ : i < p.2 + slots p.1 := hhigh
    rw [noSlots p hp] at h₂
    omega
  constructor
  -- with nothing left the last cell is taken, by an instruction that does not start there
  · rintro hplaced hfree
    obtain ⟨htaken, hstart⟩ := h.full hfree
    rcases hplaced with hany | hplaced
    · obtain ⟨p, hp, heq⟩ := List.any_eq_true.mp hany
      rcases List.mem_append.mp hp with hmem | hmem
      · exact hstart p hmem (eq_of_beq heq)
      · rw [hsnd p hmem] at heq
        cases heq
    · obtain ⟨p, hp, hcontains⟩ := (packed.taken 255).mp htaken
      exact absurd (hplaced.below p (List.mem_append_left zeros hp) 255 hcontains) (by decide)
  · intro hfree
    -- an instruction of one slot in the last cell shows as the address 255
    by_cases htaken : st.1 255 = true
    · obtain ⟨p, hp, heq⟩ := h.left hfree htaken
      exact .inl (List.any_eq_true.mpr ⟨p, List.mem_append_left zeros hp, beq_iff_eq.mpr heq⟩)
    refine .inr { all := ?_, apart := ?_, below := ?_ }
    · have hall : ops.filter (fun op => decide (0 ≤ slots op)) = ops :=
        List.filter_eq_self.mpr fun op _ => decide_eq_true (Nat.zero_le _)
      have perm : (ops.filter fun op => decide (0 ≤ slots op)).Perm
          ((ops.filter fun op => decide (1 ≤ slots op)) ++ ops.filter fun op => slots op == 0) :=
        filter_le_perm Nat.zero_lt_one fun op _ hlt => Nat.le_of_lt_succ hlt
      rw [hall] at perm
      rw [List.map_append, hfst]
      exact (packed.perm.append_right _).trans perm.symm
    · refine List.pairwise_append.mpr ⟨packed.apart, ?_, fun p _ q hq i _ => empty q hq i⟩
      exact List.Pairwise.imp_of_mem (fun {p q} hp _ _ i hi => absurd hi (empty p hp i))
        (List.pairwise_of_forall (R := fun _ _ => True) fun _ _ => trivial)
    · intro p hp i hi
      rcases List.mem_append.mp hp with hmem | hmem
      · have hlt : i < 256 := Nat.lt_of_lt_of_le hi.2 (packed.inside p hmem)
        have hne : i ≠ 255 := by
          rintro rfl
          exact htaken ((packed.taken 255).mpr ⟨p, hmem, hi⟩)
        omega
      · exact absurd hi (empty p hmem i)

/-- A list of numbers below 2, from the largest down. -/
theorem small_cases {l : List ℕ} (sorted : l.Pairwise (· > ·)) (h : ∀ a ∈ l, a < 2) :
    l = [] ∨ l = [0] ∨ l = [1] ∨ l = [1, 0] := by
  match l, sorted, h with
  | [], _, _ => exact .inl rfl
  | [a], _, h =>
    have ha := h a List.mem_cons_self
    rcases Nat.lt_succ_iff_lt_or_eq.mp ha with hlt | rfl
    · obtain rfl := Nat.lt_one_iff.mp hlt
      exact .inr (.inl rfl)
    · exact .inr (.inr (.inl rfl))
  | a :: b :: l, sorted, h =>
    rw [List.pairwise_cons, List.pairwise_cons] at sorted
    have ha := h a List.mem_cons_self
    have hab := sorted.1 b List.mem_cons_self
    obtain rfl : a = 1 := by omega
    obtain rfl : b = 0 := by omega
    cases l with
    | nil => exact .inr (.inr (.inr rfl))
    | cons c l => exact absurd (sorted.2.1 c List.mem_cons_self) (Nat.not_lt_zero c)

variable (slots ops) in
/-- Some length needs more gaps than there are. -/
def Overfull : Prop := ∃ op ∈ ops, 256 < gapsNeeded slots ops (slots op) * roundUpPow2 (slots op)

variable (slots ops) in
/-- What the instructions of two slots or more leave at the end of the ROM. -/
def leftAtEnd : ℕ := lastFree slots ops ((lengths slots ops).filter fun l => decide (2 ≤ l)) 256

/-- The state after the lengths of two slots or more. -/
theorem foldlM_long : ((∃ l ∈ (lengths slots ops).filter fun l => decide (2 ≤ l),
      256 < gapsNeeded slots ops l * roundUpPow2 l) →
        ((lengths slots ops).filter fun l => decide (2 ≤ l)).foldlM (placeLen slots ops)
          (fun _ => false, []) = none) ∧
    ((∀ l ∈ (lengths slots ops).filter fun l => decide (2 ≤ l),
      gapsNeeded slots ops l * roundUpPow2 l ≤ 256) → ∃ gapSize bound st,
        ((lengths slots ops).filter fun l => decide (2 ≤ l)).foldlM (placeLen slots ops)
          (fun _ => false, []) = some st ∧
        Packed slots ops gapSize (leftAtEnd slots ops) bound st ∧ 2 ∣ gapSize ∧ gapSize ∣ 256 ∧
        2 ≤ bound ∧ ∀ op ∈ ops, slots op < bound → slots op < 2) := by
  -- to begin with the bound is above all lengths
  have hle : ∀ op ∈ ops, slots op < (ops.map slots).sum + 2 := fun op hop =>
    Nat.lt_of_le_of_lt (List.single_le_sum (fun _ _ => Nat.zero_le _) _ (List.mem_map_of_mem hop))
      (Nat.lt_add_of_pos_right Nat.zero_lt_two)
  have hlong : ∀ l ∈ (lengths slots ops).filter (fun l => decide (2 ≤ l)),
      2 ≤ l ∧ ∃ op ∈ ops, slots op = l := by
    intro l hl
    obtain ⟨hmem, h⟩ := List.mem_filter.mp hl
    exact ⟨of_decide_eq_true h, mem_lengths.mp hmem⟩
  obtain ⟨hnone, hsome⟩ := (packed_nil hle).foldlM_spec (sorted_lengths.filter _) Nat.zero_lt_two
    (fun l hl => (hlong l hl).1) (fun l hl => (hlong l hl).2)
    (fun l hl => by
      obtain ⟨op, hop, rfl⟩ := (hlong l hl).2
      exact hle op hop)
    (fun op hop _ => by
      rcases Nat.lt_or_ge (slots op) 2 with hlt | hge
      · exact .inr hlt
      · exact .inl (List.mem_filter.mpr ⟨mem_lengths.mpr ⟨op, hop, rfl⟩, decide_eq_true hge⟩))
    (fun l hl hsize => roundUpPow2_dvd_256 (by have := (hlong l hl).1; omega) hsize)
    (Nat.dvd_refl 256)
  refine ⟨hnone, fun hall => ?_⟩
  obtain ⟨gapSize, bound, st, hfold, packed, hsize, hrom, hless, hbound⟩ := hsome hall
  refine ⟨gapSize, bound, st, hfold, packed, ?_, hrom, ?_, hless⟩
  -- the gaps are even, since the lengths are at least 2
  · rcases hsize with rfl | ⟨l, hl, rfl⟩
    · decide
    · exact roundUpPow2_dvd (x := 2) (by decide) (hlong l hl).1
  · rcases hbound with rfl | hin
    · exact Nat.le_add_left 2 _
    · exact (hlong bound hin).1

/-- The state after all lengths. -/
theorem foldlM_lengths : (Overfull slots ops →
      (lengths slots ops).foldlM (placeLen slots ops) (fun _ => false, []) = none) ∧
    (¬ Overfull slots ops → ∃ st zeros,
      (lengths slots ops).foldlM (placeLen slots ops) (fun _ => false, []) =
        some (st.1, st.2 ++ zeros) ∧ Outcome slots ops (leftAtEnd slots ops) st ∧
          zeros.map Prod.fst = (ops.filter fun op => slots op == 0) ∧ ∀ p ∈ zeros, p.2 = 0) := by
  -- the lengths from 2 on come first, then 1 and 0 where they occur
  have hfold : ∀ st, (lengths slots ops).foldlM (placeLen slots ops) st =
      (((lengths slots ops).filter fun l => decide (2 ≤ l)).foldlM (placeLen slots ops) st).bind
        (((lengths slots ops).filter fun l => decide (l < 2)).foldlM (placeLen slots ops)) := by
    intro st
    conv_lhs => rw [filter_append_of_sorted sorted_lengths 2]
    exact List.foldlM_append
  have hshort : ∀ a, a ∈ (lengths slots ops).filter (fun l => decide (l < 2)) ↔
      (∃ op ∈ ops, slots op = a) ∧ a < 2 := by
    intro a
    rw [List.mem_filter, mem_lengths, decide_eq_true_iff]
  have noZeros : (¬ ∃ op ∈ ops, slots op = 0) → ops.filter (fun op => slots op == 0) = [] :=
    fun h => List.filter_eq_nil_iff.mpr fun op hop heq => h ⟨op, hop, eq_of_beq heq⟩
  rw [hfold]
  -- where the long ones need too much the step throws, and the ROM is overfull
  by_cases hlong : ∃ l ∈ (lengths slots ops).filter fun l => decide (2 ≤ l),
      256 < gapsNeeded slots ops l * roundUpPow2 l
  · obtain ⟨l, hl, hmore⟩ := hlong
    rw [foldlM_long.1 ⟨l, hl, hmore⟩]
    refine ⟨fun _ => rfl, fun hnot => absurd ?_ hnot⟩
    obtain ⟨op, hop, rfl⟩ := mem_lengths.mp (List.mem_filter.mp hl).1
    exact ⟨op, hop, hmore⟩
  push Not at hlong
  obtain ⟨gapSize, bound, st, hst, packed, heven, hrom, hbound, hless⟩ := foldlM_long.2 hlong
  rw [hst, Option.bind_some]
  -- else only the instructions of one slot can be too many
  have overfull_iff : Overfull slots ops ↔
      (∃ op ∈ ops, slots op = 1) ∧ 256 < gapsNeeded slots ops 1 * roundUpPow2 1 := by
    constructor
    · rintro ⟨op, hop, hmore⟩
      rcases Nat.lt_or_ge (slots op) 2 with hlt | hge
      · obtain hzero | hone : slots op = 0 ∨ slots op = 1 := by omega
        · have hsize : roundUpPow2 0 = 0 := rfl
          rw [hzero, hsize, Nat.mul_zero] at hmore
          exact absurd hmore (Nat.not_lt_zero 256)
        · exact ⟨⟨op, hop, hone⟩, hone ▸ hmore⟩
      · have := hlong (slots op) (List.mem_filter.mpr
          ⟨mem_lengths.mpr ⟨op, hop, rfl⟩, decide_eq_true hge⟩)
        omega
    · rintro ⟨⟨op, hop, hone⟩, hmore⟩
      exact ⟨op, hop, hone ▸ hmore⟩
  have without : (¬ ∃ op ∈ ops, slots op = 1) → Outcome slots ops (leftAtEnd slots ops) st := by
    refine fun hnot => packed.outcome heven hrom (by omega) fun op hop hlt => ?_
    have hlt' := hless op hop hlt
    have hne : slots op ≠ 1 := fun heq => hnot ⟨op, hop, heq⟩
    omega
  have within : ¬ Overfull slots ops → (∃ op ∈ ops, slots op = 1) → ∃ st',
      placeLen slots ops st 1 = some st' ∧ Outcome slots ops (leftAtEnd slots ops) st' := by
    intro hnot hone
    refine packed.outcome_placeLen heven hrom (by omega)
      (fun op hop hlt => Nat.le_of_lt_succ (hless op hop hlt)) (Nat.not_lt.mp fun hmore => ?_)
    exact hnot (overfull_iff.mpr ⟨hone, hmore⟩)
  have refused : Overfull slots ops → placeLen slots ops st 1 = none := fun hover =>
    (packed.placeLen_spec Nat.zero_lt_one (Nat.one_dvd gapSize) hrom (by omega) fun op hop hlt =>
      Nat.le_of_lt_succ (hless op hop hlt)).1 (overfull_iff.mp hover).2
  -- neither of the short lengths, only 0, only 1, or both
  rcases small_cases (sorted_lengths.filter _) fun a ha => ((hshort a).mp ha).2 with h | h | h | h <;>
    rw [h] at hshort ⊢
  · have hone : ¬ ∃ op ∈ ops, slots op = 1 := fun hone =>
      List.not_mem_nil ((hshort 1).mpr ⟨hone, Nat.one_lt_two⟩)
    refine ⟨fun hover => absurd (overfull_iff.mp hover).1 hone, fun _ => ?_⟩
    refine ⟨st, [], by rw [List.append_nil]; rfl, without hone, (noZeros fun hzero => ?_).symm, nofun⟩
    exact List.not_mem_nil ((hshort 0).mpr ⟨hzero, Nat.zero_lt_two⟩)
  · have hone : ¬ ∃ op ∈ ops, slots op = 1 := fun hone => absurd
      ((hshort 1).mpr ⟨hone, Nat.one_lt_two⟩) (by decide)
    refine ⟨fun hover => absurd (overfull_iff.mp hover).1 hone, fun _ => ?_⟩
    obtain ⟨zeros, hplace, hfst, hsnd⟩ := @placeLen_zero _ slots ops st
    refine ⟨st, zeros, ?_, without hone, hfst, hsnd⟩
    rw [List.foldlM_cons, hplace]
    rfl
  · have hone : ∃ op ∈ ops, slots op = 1 := ((hshort 1).mp List.mem_cons_self).1
    refine ⟨fun hover => ?_, fun hnot => ?_⟩
    · rw [List.foldlM_cons, refused hover]
      rfl
    · obtain ⟨st', hplace, houtcome⟩ := within hnot hone
      refine ⟨st', [], ?_, houtcome, (noZeros fun hzero => ?_).symm, nofun⟩
      · rw [List.foldlM_cons, hplace, List.append_nil]
        rfl
      · exact absurd ((hshort 0).mpr ⟨hzero, Nat.zero_lt_two⟩) (by decide)
  · have hone : ∃ op ∈ ops, slots op = 1 := ((hshort 1).mp List.mem_cons_self).1
    refine ⟨fun hover => ?_, fun hnot => ?_⟩
    · rw [List.foldlM_cons, refused hover]
      rfl
    · obtain ⟨st', hplace, houtcome⟩ := within hnot hone
      obtain ⟨zeros, hzeros, hfst, hsnd⟩ := @placeLen_zero _ slots ops st'
      refine ⟨st', zeros, ?_, houtcome, hfst, hsnd⟩
      have hrun : [1, 0].foldlM (placeLen slots ops) st = (placeLen slots ops st 1).bind fun st' =>
          (placeLen slots ops st' 0).bind fun st'' => some st'' := rfl
      rw [hrun, hplace, Option.bind_some, hzeros, Option.bind_some]

variable (slots ops) in
/-- The condition under which a method refuses the instructions, or places them all below
address 255. -/
def Fits : ReorderMethod → Prop
  | .nop => (ops.map slots).sum ≤ 255
  | .align16 => Overfull slots ops ∨ leftAtEnd slots ops ≠ 0

theorem align16_iff : (∀ placed, reorderMicrocode slots ops .align16 = some placed →
    Placed slots ops placed) ↔ Fits slots ops .align16 := by
  rw [Fits, reorderMicrocode]
  by_cases hover : Overfull slots ops
  · rw [foldlM_lengths.1 hover]
    exact iff_of_true nofun (.inl hover)
  · obtain ⟨st, zeros, hfold, houtcome, hfst, hsnd⟩ := foldlM_lengths.2 hover
    rw [hfold, Option.bind_some, ← houtcome.placed_iff hfst hsnd, or_iff_right hover]
    split_ifs with hany
    · exact iff_of_true nofun (.inl hany)
    · rw [or_iff_right hany]
      exact ⟨fun h => h _ rfl, fun h _ heq => Option.some.inj heq ▸ h⟩

/-! ### One after the other -/

variable (slots) in
/-- The instructions one after the other, from an address on. -/
def successive (ops : List α) (start : ℕ) : List (α × ℕ) :=
  ops.zip ((ops.map slots).scanl (· + ·) start)

theorem successive_cons (op : α) (start : ℕ) : successive slots (op :: ops) start =
    (op, start) :: successive slots ops (start + slots op) := by
  rw [successive, List.map_cons, List.scanl_cons, List.zip_cons_cons, successive]

theorem le_of_mem_successive {start : ℕ} {p : α × ℕ} (hp : p ∈ successive slots ops start) :
    start ≤ p.2 ∧ p.2 + slots p.1 ≤ start + (ops.map slots).sum := by
  induction ops generalizing start with
  | nil => exact absurd hp List.not_mem_nil
  | cons op ops ih =>
    rw [successive_cons] at hp
    rw [List.map_cons, List.sum_cons]
    rcases List.mem_cons.mp hp with rfl | hmem
    · exact ⟨Nat.le_refl _, Nat.add_le_add_left (Nat.le_add_right _ _) _⟩
    · have := ih hmem
      omega

theorem pairwise_successive (start : ℕ) : (successive slots ops start).Pairwise fun p q =>
    Interval.Apart (addresses slots p) (addresses slots q) := by
  induction ops generalizing start with
  | nil => exact .nil
  | cons op ops ih =>
    rw [successive_cons]
    refine .cons (fun q hq i hi hi' => ?_) (ih _)
    have h₁ : i < start + slots op := hi.2
    have h₂ : q.2 ≤ i := hi'.1
    have := (le_of_mem_successive hq).1
    omega

/-- Instructions one after the other leave out no address. -/
theorem exists_contains_successive {start i : ℕ} (hlow : start ≤ i)
    (hhigh : i < start + (ops.map slots).sum) :
    ∃ p ∈ successive slots ops start, (addresses slots p).Contains i := by
  induction ops generalizing start with
  | nil => exact absurd hhigh (Nat.not_lt.mpr hlow)
  | cons op ops ih =>
    rw [List.map_cons, List.sum_cons] at hhigh
    rw [successive_cons]
    rcases Nat.lt_or_ge i (start + slots op) with hlt | hge
    · exact ⟨(op, start), List.mem_cons_self, hlow, hlt⟩
    · obtain ⟨p, hp, hcontains⟩ := ih hge (by omega)
      exact ⟨p, List.mem_cons_of_mem _ hp, hcontains⟩

theorem nop_iff : (∀ placed, reorderMicrocode slots ops .nop = some placed →
    Placed slots ops placed) ↔ Fits slots ops .nop := by
  have hrun : reorderMicrocode slots ops .nop = some (successive slots ops 0) := rfl
  rw [hrun, Fits]
  constructor
  · intro h
    by_contra! hlt
    obtain ⟨p, hp, hcontains⟩ := exists_contains_successive (i := 255) (Nat.zero_le _)
      (by rwa [Nat.zero_add])
    exact absurd ((h _ rfl).below p hp 255 hcontains) (by decide)
  · intro hle placed heq
    obtain rfl := Option.some.inj heq
    refine { all := ?_, apart := pairwise_successive 0, below := fun p hp i hi => ?_ }
    · rw [successive, List.map_fst_zip]
      rw [List.length_scanl, List.length_map]
      exact Nat.le_succ _
    · have h₁ := (le_of_mem_successive hp).2
      have h₂ : i < p.2 + slots p.1 := hi.2
      omega

end Stage

/-- For every list of instructions with any numbers of slots and each of the two methods,
either the placement throws, or no two instructions share an address and all are below 255, if
and only if the instructions fit. -/
theorem reorder_placed_iff {α : Type*} (slots : α → ℕ) (ops : List α) (method : ReorderMethod) :
    (∀ placed, reorderMicrocode slots ops method = some placed → Placed slots ops placed) ↔
      Fits slots ops method := by
  cases method with
  | nop => exact nop_iff
  | align16 => exact align16_iff

/-- An instruction that fills the ROM gets address 0 from both methods, and has address 255. -/
theorem fills_rom : ∃ placed, reorderMicrocode id [256] .nop = some placed ∧
    reorderMicrocode id [256] .align16 = some placed ∧ ¬ Placed id [256] placed := by
  refine ⟨[(256, 0)], by decide +kernel, by decide +kernel, fun h => ?_⟩
  exact absurd (h.below _ List.mem_cons_self 255 ⟨Nat.zero_le _, Nat.lt_succ_self 255⟩) (by decide)

end Gen

end JCore
