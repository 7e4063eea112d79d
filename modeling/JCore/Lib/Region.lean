import JCore.Lib.ByteMemory

/-!
# Regions of a memory

The cells from an address on, read as a list, and a list laid over them. A region may run
over the end of the address space as long as it does not reach its own start again.

## Main definitions

* `region`: the cells from an address on
* `storeRegion`: a list laid over the cells from an address on

## Main results

* `region_storeRegion`: what was stored is read back
* `storeRegion_append`: a region may be stored piece by piece
* `region_storeRegion_of_disjoint`: the cells outside are left alone
-/

namespace JCore

variable {w : ℕ} {β : Type} (mem : BitVec w → β) (a : BitVec w)

/-- The `n` cells from `a` on, in order. -/
def region (n : ℕ) : List β := (List.range n).map fun k => mem (a + BitVec.ofNat w k)

/-- The values of a list over the cells from `a` on. -/
def storeRegion (values : List β) : BitVec w → β := fun x => values[(x - a).toNat]?.getD (mem x)

@[simp] theorem length_region (n : ℕ) : (region mem a n).length = n := by
  rw [region, List.length_map, List.length_range]

theorem region_add (m n : ℕ) :
    region mem a (m + n) = region mem a m ++ region mem (a + BitVec.ofNat w m) n := by
  rw [region, region, region, List.range_add, List.map_append, List.map_map]
  congr 1
  refine List.map_congr_left fun k _ => ?_
  rw [Function.comp_apply, BitVec.ofNat_add, BitVec.add_assoc]

@[simp] theorem storeRegion_nil : storeRegion mem a [] = mem := by
  funext x
  rfl

/-- A block of cells is a region. -/
theorem storeBytes_eq_storeRegion (n : ℕ) (block : ℕ → β) :
    storeBytes mem a n block = storeRegion mem a ((List.range n).map block) := by
  funext x
  rw [storeBytes, storeRegion, List.getElem?_map]
  split_ifs with inside
  · rw [List.getElem?_range inside]
    rfl
  · rw [List.getElem?_eq_none (by rwa [List.length_range, ← not_lt])]
    rfl

section Offsets

variable {mem a}

/-- The index of a cell behind the start. -/
theorem toNat_add_sub {k : ℕ} (hk : k < 2 ^ w) : (a + BitVec.ofNat w k - a).toNat = k := by
  rw [add_sub_cancel_left, BitVec.toNat_ofNat, Nat.mod_eq_of_lt hk]

/-- The index of a cell is smaller by what the start is moved, or too large for any list. -/
theorem toNat_sub_add (x : BitVec w) {m : ℕ} (hm : m < 2 ^ w) :
    (x - (a + BitVec.ofNat w m)).toNat =
      if m ≤ (x - a).toNat then (x - a).toNat - m else (x - a).toNat + 2 ^ w - m := by
  rw [← BitVec.sub_sub, BitVec.toNat_sub, BitVec.toNat_ofNat, Nat.mod_eq_of_lt hm]
  have := (x - a).isLt
  split_ifs with h
  · rw [show 2 ^ w - m + (x - a).toNat = (x - a).toNat - m + 2 ^ w by omega, Nat.add_mod_right,
      Nat.mod_eq_of_lt (by omega)]
  · rw [Nat.mod_eq_of_lt (by omega)]
    omega

end Offsets

/-- A region may be stored piece by piece. -/
theorem storeRegion_append {xs ys : List β} (small : xs.length + ys.length ≤ 2 ^ w) :
    storeRegion (storeRegion mem a xs) (a + BitVec.ofNat w xs.length) ys =
      storeRegion mem a (xs ++ ys) := by
  funext x
  rcases Nat.eq_zero_or_pos ys.length with none | some
  · rw [List.eq_nil_of_length_eq_zero none, storeRegion_nil, List.append_nil]
  rw [storeRegion, storeRegion, storeRegion, toNat_sub_add x (by omega), List.getElem?_append]
  have bound := (x - a).isLt
  by_cases h : xs.length ≤ (x - a).toNat
  · rw [if_pos h, if_neg (not_lt.mpr h), List.getElem?_eq_none h]
    rfl
  · rw [if_neg h, if_pos (not_le.mp h), List.getElem?_eq_none (by omega)]
    rfl

/-- What was stored is read back. -/
theorem region_storeRegion {values : List β} (small : values.length ≤ 2 ^ w) :
    region (storeRegion mem a values) a values.length = values := by
  apply List.ext_getElem
  · rw [length_region]
  intro k hk _
  rw [length_region] at hk
  simp only [region, storeRegion, List.getElem_map, List.getElem_range]
  rw [toNat_add_sub (by omega), List.getElem?_eq_getElem hk]
  rfl

/-- Cells outside are left alone. -/
theorem storeRegion_of_outside {values : List β} {x : BitVec w}
    (outside : values.length ≤ (x - a).toNat) : storeRegion mem a values x = mem x := by
  rw [storeRegion, List.getElem?_eq_none outside]
  rfl

/-- A region that the stored one does not touch. -/
theorem region_storeRegion_of_disjoint {values : List β} {b : BitVec w} {n : ℕ}
    (disjoint : ∀ k < n, values.length ≤ (b + BitVec.ofNat w k - a).toNat) :
    region (storeRegion mem a values) b n = region mem b n := by
  refine List.map_congr_left fun k hk => ?_
  exact storeRegion_of_outside mem a (disjoint k (List.mem_range.mp hk))

end JCore
