import Mathlib.Data.List.Basic

/-!
# Comparing two folds

Two left folds over one list have the same value after every prefix exactly if
their steps agree at every state that one of them passes through.
-/

namespace List

variable {α β : Type*}

theorem foldl_take_succ (f : β → α → β) (b : β) {l : List α} {k : ℕ} (h : k < l.length) :
    (l.take (k + 1)).foldl f b = f ((l.take k).foldl f b) l[k] := by
  rw [take_succ_eq_append_getElem h, foldl_append, foldl_cons, foldl_nil]

/-- Two folds agree after every prefix exactly if their steps agree along one of
them. -/
theorem foldl_take_eq_iff (f g : β → α → β) (b : β) (l : List α) :
    (∀ k ≤ l.length, (l.take k).foldl f b = (l.take k).foldl g b) ↔
      ∀ k (h : k < l.length), f ((l.take k).foldl g b) l[k] = g ((l.take k).foldl g b) l[k] := by
  constructor
  · intro agree k h
    rw [← agree k (Nat.le_of_lt h), ← foldl_take_succ f b h, agree (k + 1) h, foldl_take_succ g b h,
      agree k (Nat.le_of_lt h)]
  · intro steps k
    induction k with
    | zero => simp
    | succ k ih =>
      intro h
      rw [foldl_take_succ f b h, foldl_take_succ g b h, ih (Nat.le_of_succ_le h), steps k h]

end List
