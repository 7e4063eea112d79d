import JCore.Lib.Buffer
import JCore.Lib.Trace
import Mathlib.Data.BitVec

/-!
# Once round

A counter of a few bits starts anywhere, goes on with every acknowledgement and stops when
the next number would be the first one again. Whenever the acknowledgements come, it passes
every number once, in turn from the first one on.

## Main definitions

* `Round.next`: one step, where `none` is a counter that has stopped

## Main results

* `Round.number_eq`: the number after some steps
* `Round.history_eq`: the numbers that have been acknowledged
* `Round.count_eq_one`: all the way round every number is met once
-/

namespace JCore

namespace Round

variable {w : ℕ} (first : BitVec w)

/-- One step of the counter. -/
def next (ack : Bool) : Option (BitVec w) → Option (BitVec w)
  | none => none
  | some x => if ack then (if x + 1 = first then none else some (x + 1)) else some x

/-- The `k`-th number from the first one on. -/
def nth (k : ℕ) : BitVec w := first + BitVec.ofNat w k

theorem nth_zero : nth first 0 = first := BitVec.add_zero first

theorem nth_succ (k : ℕ) : nth first k + 1 = nth first (k + 1) := by
  rw [nth, nth, BitVec.ofNat_add, BitVec.add_assoc]
  rfl

theorem nth_injOn {j k : ℕ} (hj : j < 2 ^ w) (hk : k < 2 ^ w) (h : nth first j = nth first k) :
    j = k := by
  have same := congrArg BitVec.toNat ((BitVec.add_right_inj first).mp h)
  rwa [BitVec.toNat_ofNat, BitVec.toNat_ofNat, Nat.mod_eq_of_lt hj, Nat.mod_eq_of_lt hk] at same

theorem nth_toNat_sub (x : BitVec w) : nth first (x - first).toNat = x := by
  rw [nth, BitVec.ofNat_toNat, BitVec.setWidth_eq, BitVec.add_comm, BitVec.sub_add_cancel]

/-- The next number is the first one when all have been met. -/
theorem nth_succ_eq_first_iff {k : ℕ} (hk : k < 2 ^ w) : nth first (k + 1) = first ↔
    k + 1 = 2 ^ w := by
  constructor
  · intro h
    by_contra ne
    have zero := nth_injOn first (by omega) (Nat.two_pow_pos w) (h.trans (nth_zero first).symm)
    exact Nat.succ_ne_zero k zero
  · intro h
    have zero : BitVec.ofNat w (2 ^ w) = 0 := by
      rw [← BitVec.toNat_inj, BitVec.toNat_ofNat, Nat.mod_self]
      rfl
    rw [nth, h, zero]
    exact BitVec.add_zero first

/-- All the way round every number is met once. -/
theorem count_eq_one (x : BitVec w) : ((List.range (2 ^ w)).map (nth first)).count x = 1 := by
  have nodup : ((List.range (2 ^ w)).map (nth first)).Nodup := by
    refine List.Nodup.map_on ?_ List.nodup_range
    intro j hj k hk h
    exact nth_injOn first (List.mem_range.mp hj) (List.mem_range.mp hk) h
  apply List.count_eq_one_of_mem nodup
  exact List.mem_map.mpr ⟨_, List.mem_range.mpr (x - first).isLt, nth_toNat_sub first x⟩

/-! ### Runs -/

section Runs

variable (ack : ℕ → Bool) (n : ℕ)

/-- The numbers of a counter that is acknowledged now and then. -/
def number : ℕ → Option (BitVec w) := trace (fun x ack => next first ack x) (some first) ack

/-- How many acknowledgements there have been. -/
def acks : ℕ := Nat.count (fun k => ack k = true) n

theorem acks_succ : acks ack (n + 1) = acks ack n + if ack n then 1 else 0 := Nat.count_succ _ _

theorem number_succ : number first ack (n + 1) = next first (ack n) (number first ack n) := rfl

variable {first ack n} in
/-- What holds of the first number and is kept by every step holds of all numbers. -/
theorem number_rel {R : ℕ → Option (BitVec w) → Prop} (init : R 0 (some first))
    (keep : ∀ k < n, R k (number first ack k) →
      R (k + 1) (next first (ack k) (number first ack k))) : R n (number first ack n) := by
  induction n with
  | zero => exact init
  | succ n ih =>
    apply keep n (Nat.lt_succ_self n)
    exact ih fun k hk => keep k (hk.trans (Nat.lt_succ_self n))

/-- After some steps the counter has come as far as there were acknowledgements. -/
theorem number_eq : number first ack n =
    if acks ack n < 2 ^ w then some (nth first (acks ack n)) else none := by
  induction n with
  | zero =>
    have zero : acks ack 0 = 0 := Nat.count_zero _
    rw [zero, if_pos (Nat.two_pow_pos w), nth_zero]
    rfl
  | succ n ih =>
    rw [number_succ, ih, acks_succ]
    cases acknowledged : ack n with
    | false =>
      rw [if_neg Bool.false_ne_true, Nat.add_zero]
      split_ifs <;> rfl
    | true =>
      by_cases more : acks ack n < 2 ^ w
      · rw [if_pos more, next, if_pos rfl, if_pos rfl, nth_succ]
        have last := nth_succ_eq_first_iff first more
        by_cases done : acks ack n + 1 = 2 ^ w
        · rw [if_pos (last.mpr done), if_neg (by omega)]
        · rw [if_neg (mt last.mp done), if_pos (by omega)]
      · rw [if_neg more, if_neg (by simp; omega), next]

variable {first ack n} in
/-- A counter that has stopped has gone all the way round. -/
theorem le_acks_of_number (stopped : number first ack n = none) : 2 ^ w ≤ acks ack n := by
  rw [number_eq] at stopped
  split_ifs at stopped with more
  exact Nat.le_of_not_lt more

/-- The numbers that have been acknowledged are the first ones in turn. -/
theorem history_eq : history (fun k => if ack k then number first ack k else none) n =
    (List.range (min (acks ack n) (2 ^ w))).map (nth first) := by
  induction n with
  | zero => simp [history, acks]
  | succ n ih =>
    rw [history_succ, ih, acks_succ]
    cases acknowledged : ack n with
    | false => simp
    | true =>
      rw [if_pos rfl, if_pos rfl, number_eq]
      by_cases more : acks ack n < 2 ^ w
      · rw [if_pos more, Nat.min_eq_left more.le, Nat.min_eq_left more, List.range_succ,
          List.map_append]
        rfl
      · rw [if_neg more, Nat.min_eq_right (by omega), Nat.min_eq_right (by omega)]
        simp

end Runs

end Round

end JCore
