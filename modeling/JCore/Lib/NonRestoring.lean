import Mathlib.Algebra.Order.Ring.Int
import Mathlib.Tactic.Linarith
import Mathlib.Tactic.LinearCombination
import Mathlib.Tactic.Positivity
import Mathlib.Tactic.Ring

/-!
# Non-restoring division

A division that never undoes a subtraction: the remainder is doubled, takes in
a digit from below and then goes towards zero by the divisor, whatever its sign.
The signs of the remainders are the digits of the quotient, and the digits taken
in are free: they may be the rest of the dividend or quotient digits on their way
out.

## Main definitions

* `next`: one step of the division
* `Divides`: a sequence of remainders and the digits they take in
* `quotient`, `digits`: the number made of the signs, and that of the digits

## Main results

* `Divides.quotient_eq_div`: the signs are the floor of the quotient
* `Divides.quotient_eq_div_start`: with the divisor above the digits they are
  that of the first remainder alone
* `digits_of_signs`, `digits_of_complements`: what comes out when the signs or
  their complements are taken in
-/

namespace JCore.NonRestoring

/-- One step: double, take in a digit, and go towards zero by the divisor. -/
def next (d z t : ℤ) : ℤ := 2 * z + t - if 0 ≤ z then d else -d

/-- A remainder of division by `d`. -/
def InBounds (d z : ℤ) : Prop := -d ≤ z ∧ z < d

/-- The sign of a remainder as a digit. -/
def signDigit (z : ℤ) : ℤ := if 0 ≤ z then 1 else 0

theorem signDigit_of_nonneg {z : ℤ} (h : 0 ≤ z) : signDigit z = 1 := if_pos h

theorem signDigit_of_neg {z : ℤ} (h : z < 0) : signDigit z = 0 := if_neg (by omega)

theorem InBounds.pos {d z : ℤ} (h : InBounds d z) : 0 < d := by
  obtain ⟨hlo, hhi⟩ := h
  omega

theorem next_eq (d z t : ℤ) : next d z t = 2 * z + t - d * (2 * signDigit z - 1) := by
  rw [next, signDigit]
  split_ifs <;> ring

/-- A step does not leave the bounds. -/
theorem InBounds.next {d z t : ℤ} (h : InBounds d z) (ht : t = 0 ∨ t = 1) :
    InBounds d (next d z t) := by
  obtain ⟨hlo, hhi⟩ := h
  rw [InBounds, NonRestoring.next]
  split_ifs <;> omega

/-- The remainders of a division by `d` with the digits they take in. -/
structure Divides (d : ℤ) (z t : ℕ → ℤ) : Prop where
  start : InBounds d (z 0)
  digit : ∀ k, t k = 0 ∨ t k = 1
  step : ∀ k, z (k + 1) = next d (z k) (t k)

/-- The number that the first `k` digits make. -/
def digits (t : ℕ → ℤ) : ℕ → ℤ
  | 0 => 0
  | k + 1 => 2 * digits t k + t k

/-- The number that the signs of the first `k + 1` remainders make, in two's
complement. -/
def quotient (z : ℕ → ℤ) : ℕ → ℤ
  | 0 => signDigit (z 0) - 1
  | k + 1 => 2 * quotient z k + signDigit (z (k + 1))

variable {d : ℤ} {z t : ℕ → ℤ}

theorem digits_bounds (digit : ∀ k, t k = 0 ∨ t k = 1) (k : ℕ) :
    0 ≤ digits t k ∧ digits t k < 2 ^ k := by
  induction k with
  | zero => simp [digits]
  | succ k ih =>
    have ht := digit k
    rw [digits, pow_succ]
    omega

theorem Divides.inBounds (h : Divides d z t) (k : ℕ) : InBounds d (z k) := by
  induction k with
  | zero => exact h.start
  | succ k ih =>
    rw [h.step]
    exact ih.next (h.digit k)

/-- The remainder after `k` steps, from the first one, the digits and the signs. -/
theorem Divides.remainder_eq (h : Divides d z t) (k : ℕ) :
    z k = 2 ^ k * z 0 + digits t k - d * (quotient z k + 1 - signDigit (z k)) := by
  induction k with
  | zero => simp [digits, quotient]
  | succ k ih =>
    have hstep : z (k + 1) = 2 * z k + t k - d * (2 * signDigit (z k) - 1) := by
      rw [h.step, next_eq]
    rw [digits, quotient, pow_succ]
    linear_combination hstep + 2 * ih

/-- The signs are the floor of the quotient of what the remainder was made of. -/
theorem Divides.quotient_eq_div (h : Divides d z t) (k : ℕ) :
    quotient z k = (2 ^ k * z 0 + digits t k) / d := by
  obtain ⟨hlo, hhi⟩ := h.inBounds k
  have hrem := h.remainder_eq k
  symm
  rw [Int.ediv_eq_iff_of_pos (h.inBounds k).pos]
  rcases le_or_gt 0 (z k) with hz | hz
  · rw [signDigit_of_nonneg hz] at hrem
    constructor <;> linarith only [hlo, hhi, hrem, hz]
  · rw [signDigit_of_neg hz] at hrem
    constructor <;> linarith only [hlo, hhi, hrem, hz]

/-- With the divisor above the digits that are taken in they do not count. -/
theorem Divides.quotient_eq_div_start {n : ℕ} {e : ℤ} (h : Divides (2 ^ n * e) z t) :
    quotient z n = z 0 / e := by
  have hpow : (0 : ℤ) < 2 ^ n := by positivity
  obtain ⟨hlo, hhi⟩ := digits_bounds h.digit n
  have hhigh : (2 ^ n * z 0 + digits t n) / 2 ^ n = z 0 := by
    rw [Int.ediv_eq_iff_of_pos hpow]
    constructor <;> linarith only [hlo, hhi]
  rw [h.quotient_eq_div, ← Int.ediv_ediv_of_nonneg hpow.le, hhigh]

/-- The digits taken in lie below the divisor. -/
theorem Divides.remainder_emod {n : ℕ} {e : ℤ} (h : Divides (2 ^ n * e) z t) :
    z n % 2 ^ n = digits t n := by
  obtain ⟨hlo, hhi⟩ := digits_bounds h.digit n
  have hsplit : z n = digits t n + 2 ^ n * (z 0 - e * (quotient z n + 1 - signDigit (z n))) := by
    linear_combination h.remainder_eq n
  rw [hsplit, Int.add_mul_emod_self_left, Int.emod_eq_of_lt hlo hhi]

/-- Taking in the signs, after the complement of the first, leaves the quotient
with the first sign above it. -/
theorem digits_of_signs (first : t 0 = 1 - signDigit (z 0))
    (rest : ∀ k, t (k + 1) = signDigit (z (k + 1))) (k : ℕ) :
    digits t (k + 1) = quotient z k + 2 ^ (k + 1) * (1 - signDigit (z 0)) := by
  induction k with
  | zero =>
    rw [digits, digits, quotient, first]
    ring
  | succ k ih =>
    rw [digits, quotient, rest, pow_succ]
    linear_combination 2 * ih

/-- Taking in the complements of the signs, after the first sign itself, leaves
the complement of the quotient. -/
theorem digits_of_complements (first : t 0 = signDigit (z 0))
    (rest : ∀ k, t (k + 1) = 1 - signDigit (z (k + 1))) (k : ℕ) :
    digits t (k + 1) = 2 ^ (k + 1) * signDigit (z 0) - 1 - quotient z k := by
  induction k with
  | zero =>
    rw [digits, digits, quotient, first]
    ring
  | succ k ih =>
    rw [digits, quotient, rest, pow_succ]
    linear_combination 2 * ih

end JCore.NonRestoring
