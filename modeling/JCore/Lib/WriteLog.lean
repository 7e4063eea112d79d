import Mathlib.Data.Nat.Count

/-!
# Writes in program order

A store that is written by a sequence of writes, some of them absent. The value
of a key after `n` of them is the one last written to it, or the initial one.
-/

namespace JCore

variable {κ α : Type*} [DecidableEq κ]

/-- The store after one write. -/
def applyWrite (store : κ → α) : Option (κ × α) → κ → α
  | none => store
  | some (key, value) => Function.update store key value

@[simp] theorem applyWrite_none (store : κ → α) : applyWrite store none = store := rfl

theorem applyWrite_some (store : κ → α) (key : κ) (value : α) (k : κ) :
    applyWrite store (some (key, value)) k = if k = key then value else store k :=
  Function.update_apply _ _ _ _

/-- The store after the first `n` writes. -/
def afterWrites (init : κ → α) (writes : ℕ → Option (κ × α)) : ℕ → κ → α
  | 0 => init
  | n + 1 => applyWrite (afterWrites init writes n) (writes n)

variable {init : κ → α} {writes : ℕ → Option (κ × α)}

theorem afterWrites_succ (n : ℕ) :
    afterWrites init writes (n + 1) = applyWrite (afterWrites init writes n) (writes n) := rfl

end JCore
