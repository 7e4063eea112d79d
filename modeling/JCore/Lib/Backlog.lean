import Mathlib.Order.MinMax
import Mathlib.Tactic.Common

/-!
# A queue served once a tick

Arrivals come in any amount at a tick, and at the end of every tick one of those
still waiting is served. How many are served after `n` ticks is bounded by the
arrivals up to any earlier tick and the ticks since, and one of these bounds is
met; so nobody waits exactly if no stretch at the end brings in more arrivals
than it has ticks.

## Main results

* `served_le`, `exists_served_eq`: the bounds, and the one that is met
* `served_eq_iff`: when everybody is served
-/

namespace JCore.Backlog

/-- The number served after `n` ticks, when `arrived n` have come by then. -/
def served (arrived : ℕ → ℕ) : ℕ → ℕ
  | 0 => 0
  | n + 1 => min (served arrived n + 1) (arrived (n + 1))

variable {arrived : ℕ → ℕ}

theorem served_le_arrived (n : ℕ) : served arrived n ≤ arrived n := by
  cases n with
  | zero => exact Nat.zero_le _
  | succ n => exact min_le_right _ _

theorem served_congr {other : ℕ → ℕ} {n : ℕ} (h : ∀ k ≤ n, arrived k = other k) :
    served arrived n = served other n := by
  induction n with
  | zero => rfl
  | succ n ih => rw [served, served, ih fun k hk => h k (by omega), h (n + 1) le_rfl]

/-- Since tick `k` at most one a tick was served. -/
theorem served_le {k n : ℕ} (h : k ≤ n) : served arrived n ≤ arrived k + (n - k) := by
  induction n, h using Nat.le_induction with
  | base => simpa using served_le_arrived k
  | succ n h ih =>
    have := min_le_left (served arrived n + 1) (arrived (n + 1))
    rw [served]
    omega

/-- Since some tick one was served every tick. -/
theorem exists_served_eq (start : arrived 0 = 0) (n : ℕ) :
    ∃ k ≤ n, served arrived n = arrived k + (n - k) := by
  induction n with
  | zero => exact ⟨0, le_rfl, by simp [served, start]⟩
  | succ n ih =>
    obtain ⟨k, hk, hserved⟩ := ih
    rcases min_choice (served arrived n + 1) (arrived (n + 1)) with h | h
    · exact ⟨k, by omega, by rw [served, h]; omega⟩
    · exact ⟨n + 1, le_rfl, by rw [served, h]; omega⟩

/-- Everybody is served exactly if no stretch at the end has more arrivals than
ticks. -/
theorem served_eq_iff (start : arrived 0 = 0) (n : ℕ) :
    served arrived n = arrived n ↔ ∀ k ≤ n, arrived n ≤ arrived k + (n - k) := by
  constructor
  · intro h k hk
    rw [← h]
    exact served_le hk
  · intro h
    obtain ⟨k, hk, hserved⟩ := exists_served_eq start n
    have : served arrived n ≤ arrived n := served_le_arrived n
    have := h k hk
    omega

end JCore.Backlog
