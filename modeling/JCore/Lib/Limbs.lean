import Mathlib.Algebra.BigOperators.Group.List.Basic
import Mathlib.Data.Int.Order.Lemmas
import Mathlib.Tactic.Linarith
import Mathlib.Tactic.LinearCombination
import Mathlib.Tactic.Ring

/-!
# Numbers in limbs

A number is a list of limbs over a base, the least significant first. A program goes through
the limbs in turn and passes one bit on, the carry of a sum or the borrow of a difference. If
every step is exact with its bit, the whole program is.

## Main definitions

* `Limbs.value`: the number that a list of limbs stands for
* `Limbs.chain`: a program that goes through the limbs

## Main results

* `Limbs.value_chain`: exact steps make an exact program
* `Limbs.carry_of_value`, `Limbs.borrow_of_value`: the bit that is left
-/

namespace JCore

namespace Limbs

variable {α β σ : Type*} (base : ℤ)

/-- The number that a list of limbs stands for. -/
def value : List ℤ → ℤ
  | [] => 0
  | d :: ds => d + base * value ds

@[simp] theorem value_nil : value base [] = 0 := rfl

@[simp] theorem value_cons (d : ℤ) (ds : List ℤ) : value base (d :: ds) = d + base * value base ds :=
  rfl

theorem value_map_add (f g : α → ℤ) (l : List α) :
    value base (l.map fun a => f a + g a) = value base (l.map f) + value base (l.map g) := by
  induction l with
  | nil => rfl
  | cons a l ih =>
    simp only [List.map_cons, value_cons, ih]
    ring

theorem value_map_neg (f : α → ℤ) (l : List α) :
    value base (l.map fun a => -f a) = -value base (l.map f) := by
  induction l with
  | nil => rfl
  | cons a l ih =>
    simp only [List.map_cons, value_cons, ih]
    ring

/-- With limbs below the base a number is below the power of its length. -/
theorem value_bounds (base : ℤ) (l : List ℤ) (h : ∀ d ∈ l, 0 ≤ d ∧ d < base) :
    0 ≤ value base l ∧ value base l < base ^ l.length := by
  induction l with
  | nil => simp
  | cons d l ih =>
    obtain ⟨low, high⟩ := h d List.mem_cons_self
    obtain ⟨nonneg, lt⟩ := ih fun d hd => h d (List.mem_cons_of_mem _ hd)
    rw [value_cons, List.length_cons, pow_succ]
    have hbase : 0 ≤ base := by omega
    constructor
    · exact add_nonneg low (mul_nonneg hbase nonneg)
    · have step : base * (value base l + 1) ≤ base * base ^ l.length :=
        mul_le_mul_of_nonneg_left lt hbase
      linarith

/-- One step for each limb, the state of each from the one before. -/
def chain (step : α → σ → β × σ) : List α → σ → List β × σ
  | [], s => ([], s)
  | a :: l, s =>
    let next := step a s
    let rest := chain step l next.2
    (next.1 :: rest.1, rest.2)

theorem length_chain (step : α → σ → β × σ) (l : List α) (s : σ) :
    (chain step l s).1.length = l.length := by
  induction l generalizing s with
  | nil => rfl
  | cons a l ih => exact congrArg (· + 1) (ih _)

/-- Exact steps make an exact program: `digit` is what a step adds, and `bit` counts for the
next one as often as `sign` says. -/
theorem value_chain {step : α → σ → β × σ} {toInt : β → ℤ} {digit : α → ℤ} (bit : σ → ℤ)
    {sign : ℤ}
    (exact_step : ∀ a s, toInt (step a s).1 + base * (sign * bit (step a s).2) =
      digit a + sign * bit s) (l : List α) (s : σ) :
    value base ((chain step l s).1.map toInt) + base ^ l.length * (sign * bit (chain step l s).2) =
      value base (l.map digit) + sign * bit s := by
  induction l generalizing s with
  | nil => simp [chain]
  | cons a l ih =>
    have first := exact_step a s
    have rest := ih (step a s).2
    simp only [chain, List.map_cons, value_cons, List.length_cons, pow_succ]
    linear_combination first + base * rest

section Bit

variable {size v total : ℤ} {bit : Bool}

/-- What is left of a sum is the sum modulo the size, and the bit is its carry. -/
theorem carry_of_value (bounds : 0 ≤ v ∧ v < size) (h : v + size * bit.toNat = total) :
    v = total % size ∧ bit = decide (size ≤ total) := by
  subst h
  constructor
  · rw [Int.add_mul_emod_self_left, Int.emod_eq_of_lt bounds.1 bounds.2]
  · cases bit <;> simp <;> omega

/-- What is left of a difference is the difference modulo the size, and the bit is its borrow. -/
theorem borrow_of_value (bounds : 0 ≤ v ∧ v < size) (h : v - size * bit.toNat = total) :
    v = total % size ∧ bit = decide (total < 0) := by
  subst h
  constructor
  · rw [Int.sub_mul_emod_self_left, Int.emod_eq_of_lt bounds.1 bounds.2]
  · cases bit <;> simp <;> omega

end Bit

end Limbs

end JCore
