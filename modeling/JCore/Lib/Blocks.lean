import Mathlib.Algebra.BigOperators.Group.List.Basic
import Mathlib.Algebra.GroupWithZero.Nat
import Mathlib.Data.Finset.Card
import Mathlib.Data.Finset.Range
import Mathlib.Order.Interval.Finset.Nat

/-!
# Intervals on a grid

Intervals of numbers that start at multiples of a block size. An interval meets as many blocks
as its length needs, and intervals that share no number share no block.

## Main definitions

* `Interval`: a start and a length
* `Interval.blocks`: the number of blocks for a length

## Main results

* `Interval.meets_iff`: the blocks that an interval meets
* `Interval.card_met`: the number of blocks that separate intervals meet
* `last_mem_take_iff`: the last of a range is among the first of a part of it only if all are
-/

namespace JCore

/-- The numbers from a start on, as many as the length says. -/
structure Interval where
  start : ℕ
  len : ℕ

namespace Interval

variable {g b : ℕ} {p q : Interval}

def Contains (p : Interval) (i : ℕ) : Prop := p.start ≤ i ∧ i < p.start + p.len

/-- The intervals share no number. -/
def Apart (p q : Interval) : Prop := ∀ i, p.Contains i → ¬ q.Contains i

theorem Apart.symm (h : Apart p q) : Apart q p := fun i hq hp => h i hp hq

/-- The interval has a number in the block. -/
def Meets (p : Interval) (g b : ℕ) : Prop := ∃ i, p.Contains i ∧ i / g = b

/-- The number of blocks for the length. -/
def blocks (g len : ℕ) : ℕ := (len + g - 1) / g

theorem blocks_eq_one {len : ℕ} (hpos : 0 < len) (hle : len ≤ g) : blocks g len = 1 := by
  refine Nat.div_eq_of_lt_le ?_ ?_ <;> omega

/-- An interval at the start of a block meets the blocks from there on that its length needs. -/
theorem meets_iff (hg : 0 < g) (aligned : g ∣ p.start) :
    p.Meets g b ↔ p.start / g ≤ b ∧ b < p.start / g + blocks g p.len := by
  obtain ⟨k, hk⟩ := aligned
  rw [hk, Nat.mul_div_cancel_left k hg]
  constructor
  · rintro ⟨i, ⟨hle, hlt⟩, rfl⟩
    rw [hk] at hle hlt
    refine ⟨(Nat.le_div_iff_mul_le hg).mpr (by rwa [Nat.mul_comm]), ?_⟩
    have hblocks : k + blocks g p.len = (g * k + (p.len + g - 1)) / g := by
      rw [blocks, Nat.mul_add_div hg]
    rw [hblocks, Nat.lt_iff_add_one_le, Nat.le_div_iff_mul_le hg, Nat.add_mul, Nat.one_mul]
    have := Nat.div_mul_le_self i g
    omega
  · rintro ⟨hle, hlt⟩
    obtain ⟨c, rfl⟩ := Nat.exists_eq_add_of_le hle
    have hc : c + 1 ≤ blocks g p.len := by omega
    rw [blocks, Nat.le_div_iff_mul_le hg, Nat.add_mul, Nat.one_mul] at hc
    refine ⟨g * (k + c), ⟨?_, ?_⟩, Nat.mul_div_cancel_left _ hg⟩
    · rw [hk, Nat.mul_add]
      exact Nat.le_add_right _ _
    · rw [hk, Nat.mul_add, Nat.mul_comm g c]
      omega

/-- Intervals at the starts of blocks that share no number share no block. -/
theorem not_meets_of_apart (hg : 0 < g) (hp : g ∣ p.start) (hq : g ∣ q.start) (h : Apart p q)
    (hmeets : p.Meets g b) : ¬ q.Meets g b := by
  rintro ⟨j, hj, hjb⟩
  obtain ⟨i, hi, hib⟩ := hmeets
  have hdiv : i / g = j / g := hib.trans hjb.symm
  obtain ⟨k, hk⟩ := hp
  obtain ⟨l, hl⟩ := hq
  have hi' := hi
  have hj' := hj
  rw [Contains, hk] at hi'
  rw [Contains, hl] at hj'
  -- The one that starts later starts within the block.
  rcases Nat.le_total k l with hle | hle
  · have : l ≤ i / g := hdiv ▸ (Nat.le_div_iff_mul_le hg).mpr (by rw [Nat.mul_comm]; exact hj'.1)
    have hli : g * l ≤ i := by
      rw [Nat.mul_comm]
      exact (Nat.le_div_iff_mul_le hg).mp this
    have hkl : g * k ≤ g * l := Nat.mul_le_mul_left g hle
    refine h (g * l) ⟨?_, ?_⟩ ⟨?_, ?_⟩ <;> omega
  · have : k ≤ j / g := hdiv ▸ (Nat.le_div_iff_mul_le hg).mpr (by rw [Nat.mul_comm]; exact hi'.1)
    have hkj : g * k ≤ j := by
      rw [Nat.mul_comm]
      exact (Nat.le_div_iff_mul_le hg).mp this
    have hlk : g * l ≤ g * k := Nat.mul_le_mul_left g hle
    refine h (g * k) ⟨?_, ?_⟩ ⟨?_, ?_⟩ <;> omega

open Classical in
/-- Separate intervals meet as many blocks as their lengths need together. -/
theorem card_met {m : ℕ} {l : List Interval} (hg : 0 < g) (aligned : ∀ p ∈ l, g ∣ p.start)
    (inside : ∀ p ∈ l, p.start + p.len ≤ g * m) (apart : l.Pairwise Apart) :
    ((Finset.range m).filter fun b => ∃ p ∈ l, p.Meets g b).card =
      (l.map fun p => blocks g p.len).sum := by
  induction l with
  | nil => simp
  | cons p l ih =>
    rw [List.forall_mem_cons] at aligned inside
    rw [List.pairwise_cons] at apart
    have first : (Finset.range m).filter (fun b => p.Meets g b) =
        Finset.Ico (p.start / g) (p.start / g + blocks g p.len) := by
      ext b
      rw [Finset.mem_filter, Finset.mem_range, Finset.mem_Ico, meets_iff hg aligned.1,
        and_iff_right_iff_imp]
      intro hb
      obtain ⟨i, hi, rfl⟩ := (meets_iff hg aligned.1).mpr hb
      rw [Nat.div_lt_iff_lt_mul hg, Nat.mul_comm]
      exact Nat.lt_of_lt_of_le hi.2 inside.1
    have split : (Finset.range m).filter (fun b => ∃ q ∈ p :: l, q.Meets g b) =
        (Finset.range m).filter (fun b => p.Meets g b) ∪
          (Finset.range m).filter fun b => ∃ q ∈ l, q.Meets g b := by
      rw [← Finset.filter_or]
      exact Finset.filter_congr fun b _ => List.exists_mem_cons_iff _ _ _
    rw [split, Finset.card_union_of_disjoint, first, Nat.card_Ico, Nat.add_sub_cancel_left,
      ih aligned.2 inside.2 apart.2, List.map_cons, List.sum_cons]
    refine Finset.disjoint_filter.mpr fun b _ hb => ?_
    rintro ⟨q, hq, hmeets⟩
    exact not_meets_of_apart hg aligned.1 (aligned.2 q hq) (apart.1 q hq) hb hmeets

end Interval

/-! ### Parts of a range -/

theorem length_filter_range (f : ℕ → Bool) (m : ℕ) :
    ((List.range m).filter f).length = ((Finset.range m).filter fun b => f b = true).card := by
  rw [← List.toFinset_card_of_nodup (List.nodup_range.filter f)]
  refine congrArg Finset.card (Finset.ext fun b => ?_)
  rw [List.mem_toFinset, List.mem_filter, List.mem_range, Finset.mem_filter, Finset.mem_range]

/-- The last of a range is among the first of a part of it only if all of the part are. -/
theorem last_mem_take_iff (f : ℕ → Bool) (m n : ℕ) :
    m ∈ ((List.range (m + 1)).filter f).take n ↔
      f m = true ∧ ((List.range (m + 1)).filter f).length ≤ n := by
  rw [List.range_succ, List.filter_append]
  have below : m ∉ (List.range m).filter f := fun h =>
    Nat.lt_irrefl m (List.mem_range.mp (List.mem_filter.mp h).1)
  cases hm : f m with
  | false =>
    rw [List.filter_cons_of_neg (by simp [hm]), List.filter_nil, List.append_nil]
    exact iff_of_false (fun h => below (List.mem_of_mem_take h)) (fun h => Bool.false_ne_true h.1)
  | true =>
    rw [List.filter_cons_of_pos hm, List.filter_nil, List.length_append, List.length_singleton,
      and_iff_right rfl, List.take_append]
    rcases Nat.lt_or_ge n (((List.range m).filter f).length + 1) with hlt | hge
    · have hzero : n - ((List.range m).filter f).length = 0 := by omega
      rw [hzero, List.take_zero, List.append_nil]
      exact iff_of_false (fun h => below (List.mem_of_mem_take h)) (by omega)
    · have hne : n - ((List.range m).filter f).length ≠ 0 := by omega
      obtain ⟨k, hk⟩ := Nat.exists_eq_succ_of_ne_zero hne
      rw [hk]
      exact iff_of_true (List.mem_append_right _ List.mem_cons_self) (by omega)

end JCore
