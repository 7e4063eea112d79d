import Mathlib.Data.Nat.Nth

/-!
# Traces of a state machine

The states a machine passes through on an infinite sequence of inputs, with the
induction rule for invariants. A machine that ignores the inputs without an
enable bit runs on the subsequence of the enabled ones.
-/

namespace JCore

variable {σ ι : Type*} (step : σ → ι → σ) (s : σ) (u : ℕ → ι)

/-- The states on an input sequence. -/
def trace : ℕ → σ
  | 0 => s
  | n + 1 => step (trace n) (u n)

@[simp] theorem trace_zero : trace step s u 0 = s := rfl

theorem trace_succ (n : ℕ) : trace step s u (n + 1) = step (trace step s u n) (u n) := rfl

variable {step s u}

/-- What holds at first and is kept by every step holds throughout. -/
theorem trace_invariant {P : σ → Prop} (init : P s) (keep : ∀ n x, P x → P (step x (u n))) (n : ℕ) :
    P (trace step s u n) := by
  induction n with
  | zero => exact init
  | succ n ih => exact keep n _ ih

section Enabled

variable (en : ι → Bool)

/-- The `n`-th input with the enable bit. -/
noncomputable def enabledInput (u : ℕ → ι) (n : ℕ) : ι := u (Nat.nth (fun t => en (u t) = true) n)

/-- How many inputs before time `t` have the enable bit. -/
def enabledCount (u : ℕ → ι) (t : ℕ) : ℕ := Nat.count (fun t => en (u t) = true) t

theorem enabledInput_count {t : ℕ} (h : en (u t) = true) :
    enabledInput en u (enabledCount en u t) = u t := by
  rw [enabledInput, enabledCount, Nat.nth_count h]

/-- Inputs that change nothing may be left out. On the others the machine may
be replaced by one that only agrees with it there. -/
theorem trace_eq_enabled {step' : σ → ι → σ} (idle : ∀ x i, en i = false → step x i = x)
    (agree : ∀ x i, en i = true → step x i = step' x i) (t : ℕ) :
    trace step s u t = trace step' s (enabledInput en u) (enabledCount en u t) := by
  induction t with
  | zero => simp [enabledCount]
  | succ t ih =>
    rw [trace_succ, enabledCount, Nat.count_succ]
    rcases h : en (u t) with _ | _
    · rw [idle _ _ h, ih]
      rfl
    · rw [if_pos rfl, trace_succ, ← enabledCount, enabledInput_count en h, ih, agree _ _ h]

end Enabled

end JCore
