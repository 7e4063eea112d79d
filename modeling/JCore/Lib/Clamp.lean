import Mathlib.Algebra.Order.Group.Basic
import Mathlib.Algebra.Order.Ring.Int
import Mathlib.Tactic.Abel

/-!
# Clamping to an interval

Saturating accumulation over an ordered group. Adding an increment in two
parts and clamping after each agrees with clamping the sum once unless the
first part leaves the interval and the second part brings the sum back;
`clamp_add_clamp_eq_iff` gives the exact condition for a nonnegative first
part.
-/

namespace JCore

variable {α : Type*} [LinearOrder α] {lo hi x : α}

/-- The point of the interval `[lo, hi]` nearest to `x`. -/
def clamp (lo hi x : α) : α := max lo (min x hi)

theorem clamp_of_mem (hlo : lo ≤ x) (hhi : x ≤ hi) : clamp lo hi x = x := by
  rw [clamp, min_eq_left hhi, max_eq_right hlo]

theorem clamp_of_le (h : x ≤ lo) (hle : lo ≤ hi) : clamp lo hi x = lo := by
  rw [clamp, min_eq_left (h.trans hle), max_eq_left h]

theorem clamp_of_ge (h : hi ≤ x) (hle : lo ≤ hi) : clamp lo hi x = hi := by
  rw [clamp, min_eq_right h, max_eq_right hle]

theorem le_clamp : lo ≤ clamp lo hi x := le_max_left _ _

theorem clamp_le (hle : lo ≤ hi) : clamp lo hi x ≤ hi := max_le hle (min_le_right _ _)

/-- Clamping is strictly monotone as long as one of the two points is inside. -/
theorem clamp_lt_clamp {y : α} (hxy : x < y) (hx : x < hi) (hy : lo < y) (hle : lo < hi) :
    clamp lo hi x < clamp lo hi y := by
  refine max_lt ?_ ?_
  · exact lt_max_of_lt_right (lt_min hy hle)
  · exact lt_max_of_lt_right ((min_le_left _ _).trans_lt (lt_min hxy hx))

section Increments

variable [AddCommGroup α] [IsOrderedAddMonoid α] {p q : α}

/-- Clamping after each of two increments, the first of them nonnegative, is
clamping their sum exactly if the first increment stays inside, or the second
does not lead back, or the sum is below the interval. -/
theorem clamp_add_clamp_eq_iff (hlt : lo < hi) (hlo : lo ≤ x) (hp : 0 ≤ p) :
    clamp lo hi (clamp lo hi (x + p) + q) = clamp lo hi (x + p + q) ↔
      x + p ≤ hi ∨ 0 ≤ q ∨ x + p + q ≤ lo := by
  have hxp : lo ≤ x + p := hlo.trans (le_add_of_nonneg_right hp)
  rcases le_or_gt (x + p) hi with hin | hout
  · simp [clamp_of_mem hxp hin, hin]
  · rw [clamp_of_ge hout.le hlt.le]
    rcases le_or_gt 0 q with hq | hq
    · have hfirst : hi ≤ hi + q := le_add_of_nonneg_right hq
      have hsum : hi ≤ x + p + q := hout.le.trans (le_add_of_nonneg_right hq)
      simp [clamp_of_ge hfirst hlt.le, clamp_of_ge hsum hlt.le, hq]
    · have hfirst : hi + q < hi := add_lt_of_neg_right hi hq
      have hstep : hi + q < x + p + q := by gcongr
      rcases le_or_gt (x + p + q) lo with hbelow | habove
      · simp [clamp_of_le hbelow hlt.le, clamp_of_le (hstep.le.trans hbelow) hlt.le, hbelow]
      · have hne := (clamp_lt_clamp hstep hfirst habove hlt).ne
        simp [hne, hout.not_ge, hq.not_ge, habove.not_ge]

end Increments

end JCore
