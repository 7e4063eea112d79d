import Mathlib.Data.Nat.Count

/-!
# Buffers of one place

A place that holds at most one item, into which items are put and from which
they are taken over time; an item may also pass through at once. If no step
loses or doubles an item, no item is overwritten, and the items put in so far
are those taken out, in the same order, and the one still held.

## Main definitions

* `history`: the items that a sequence of events carries
* `OnePlace`: the law of a place, step by step

## Main results

* `OnePlace.stays`, `OnePlace.leaves`, `OnePlace.fills`: the single steps
* `OnePlace.history_put`: the order of the items over a run
-/

namespace JCore

variable {α : Type*}

/-- The items that a sequence of events carries before time `t`. -/
def history (events : ℕ → Option α) (t : ℕ) : List α :=
  (List.range t).flatMap fun k => (events k).toList

theorem history_succ (events : ℕ → Option α) (t : ℕ) :
    history events (t + 1) = history events t ++ (events t).toList := by
  simp [history, List.range_succ]

/-- What has happened stays. -/
theorem history_mono {events : ℕ → Option α} {s t : ℕ} (le : s ≤ t) :
    history events s <+: history events t := by
  induction t, le using Nat.le_induction with
  | base => exact List.prefix_rfl
  | succ t le ih =>
    rw [history_succ]
    exact ih.trans (List.prefix_append _ _)

/-- Events that carry nothing leave out nothing. -/
theorem history_quiet {events : ℕ → Option α} {s t : ℕ} (le : s ≤ t)
    (quiet : ∀ u, s ≤ u → u < t → events u = none) : history events t = history events s := by
  induction t, le using Nat.le_induction with
  | base => rfl
  | succ t le ih =>
    rw [history_succ, ih fun u hu hut => quiet u hu (hut.trans (Nat.lt_succ_self t)),
      quiet t le (Nat.lt_succ_self t), Option.toList_none, List.append_nil]

/-- One item among events that carry none otherwise. -/
theorem history_single {events : ℕ → Option α} {x : α} {s t : ℕ} (le : s ≤ t)
    (first : events s = some x) (rest : ∀ u, s < u → u ≤ t → events u = none) :
    history events (t + 1) = history events s ++ [x] := by
  have after := history_quiet (Nat.succ_le_succ le) fun u hu hut =>
    rest u hu (Nat.le_of_lt_succ hut)
  rw [after, history_succ, first, Option.toList_some]

/-- Items that come in every step of a stretch. -/
theorem history_stretch {events : ℕ → Option α} {f : ℕ → α} {s n : ℕ}
    (before : ∀ u < s, events u = none) (during : ∀ j < n, events (s + j) = some (f j)) :
    history events (s + n) = (List.range n).map f := by
  induction n with
  | zero => exact history_quiet (Nat.zero_le s) fun u _ hu => before u hu
  | succ n ih =>
    rw [← Nat.add_assoc, history_succ, ih fun j hj => during j (hj.trans (Nat.lt_succ_self n)),
      during n (Nat.lt_succ_self n), List.range_succ, List.map_append]
    rfl

theorem mem_history {events : ℕ → Option α} {t : ℕ} {x : α} :
    x ∈ history events t ↔ ∃ k < t, events k = some x := by
  simp [history]

theorem history_map {β : Type*} (events : ℕ → Option α) (f : α → β) (t : ℕ) :
    history (fun k => (events k).map f) t = (history events t).map f := by
  induction t with
  | zero => rfl
  | succ t ih =>
    rw [history_succ, history_succ, ih, List.map_append]
    cases events t <;> rfl

theorem history_congr {events events' : ℕ → Option α} {t : ℕ}
    (same : ∀ k < t, events k = events' k) : history events t = history events' t := by
  induction t with
  | zero => rfl
  | succ t ih =>
    rw [history_succ, history_succ, same t (Nat.lt_succ_self t),
      ih fun k hk => same k (hk.trans (Nat.lt_succ_self t))]

theorem filterMap_toList {β : Type*} (f : α → Option β) (x : Option α) :
    x.toList.filterMap f = (x.bind f).toList := by
  cases x with
  | none => rfl
  | some x => cases h : f x <;> simp [h]

/-- What is read off the items. -/
theorem history_bind {β : Type*} (events : ℕ → Option α) (f : α → Option β) (t : ℕ) :
    history (fun t => (events t).bind f) t = (history events t).filterMap f := by
  induction t with
  | zero => rfl
  | succ t ih => rw [history_succ, history_succ, ih, List.filterMap_append, filterMap_toList]

/-- A place that starts empty and neither loses nor doubles an item. -/
structure OnePlace (held put take : ℕ → Option α) : Prop where
  empty : held 0 = none
  step : ∀ t, (held t).toList ++ (put t).toList = (take t).toList ++ (held (t + 1)).toList

namespace OnePlace

variable {held put take : ℕ → Option α} {t : ℕ} {x : α}

/-- What is not taken stays, and nothing is put on top of it. -/
theorem stays (h : OnePlace held put take) (hx : held t = some x) (ht : take t = none) :
    held (t + 1) = some x ∧ put t = none := by
  have step := h.step t
  rw [hx, ht] at step
  cases hput : put t <;> cases hnext : held (t + 1) <;> simp_all

/-- What is taken is what was held, and its place is free for the next item. -/
theorem leaves (h : OnePlace held put take) (hx : held t = some x) {y : α}
    (ht : take t = some y) : y = x ∧ held (t + 1) = put t := by
  have step := h.step t
  rw [hx, ht] at step
  cases hput : put t <;> cases hnext : held (t + 1) <;> simp_all

/-- A free place takes what is put in and not taken at once. -/
theorem fills (h : OnePlace held put take) (hx : held t = none) (ht : take t = none) :
    held (t + 1) = put t := by
  have step := h.step t
  rw [hx, ht] at step
  cases hput : put t <;> cases hnext : held (t + 1) <;> simp_all

/-- Every item put in is taken out once and in order, or still there. -/
theorem history_put (h : OnePlace held put take) (t : ℕ) :
    history put t = history take t ++ (held t).toList := by
  induction t with
  | zero => simp [history, h.empty]
  | succ t ih => rw [history_succ, history_succ, ih, List.append_assoc, h.step, List.append_assoc]

end OnePlace

end JCore
