import JCore.Lib.Clamp
import JCore.Lib.Folds
import JCore.Mult.Arith
import JCore.Mult.Schedule
import Mathlib.Algebra.Order.Ring.Abs

/-!
# Saturating MAC.L

With the saturation bit set a `MAC.L` adds its product in two parts and
saturates after each: first the product with the low half of the second
operand, taken as unsigned, then the rest. The first part is never negative,
so a negative product can be clipped at the upper bound on its way down.

## Main results

* `toInt_saturate64`: the region logic is a clamp to the 48-bit range, for every addend
* `run_stream_macl`: a stream of `MAC.L` is a fold of the two clamped additions
* `macl_stream_eq_iff`: that is the fold of one clamped addition exactly if no
  pair has an accumulator that its low part lifts above the range while the
  sum lies below what the clipping leaves
-/

namespace JCore.Mult

open BitVec

/-- The accumulator lies in the signed 48-bit range. -/
def InRange (total : ℤ) : Prop := -2 ^ 47 ≤ total ∧ total ≤ 2 ^ 47 - 1

instance (total : ℤ) : Decidable (InRange total) := inferInstanceAs (Decidable (_ ∧ _))

/-- Clamping to the signed 48-bit range. -/
def clamp48 (x : ℤ) : ℤ := clamp (-2 ^ 47) (2 ^ 47 - 1) x

theorem inRange_clamp48 (x : ℤ) : InRange (clamp48 x) := ⟨le_clamp, clamp_le (by decide)⟩

/-! ### The region logic -/

section Regions

variable (x : BitVec 64)

theorem getLsbD_63_eq : x.getLsbD 63 = decide (x.toInt < 0) := by
  rw [show x.getLsbD 63 = x.msb from (msb_eq_getLsbD_last x).symm, msb_eq_toInt]

/-- The upper bits agree with the sign exactly inside the 48-bit range. -/
theorem overflow_eq :
    ((x.getLsbD 63 == false && x.extractLsb' 47 16 != 0x0000#16) ||
      (x.getLsbD 63 && x.extractLsb' 47 16 != 0xffff#16)) = !decide (InRange x.toInt) := by
  have hx : x.toNat < 2 ^ 64 := x.isLt
  have hne : ∀ k : BitVec 16, (x.extractLsb' 47 16 != k) =
      decide (x.toNat / 140737488355328 % 65536 ≠ k.toNat) := by
    intro k
    rw [Bool.eq_iff_iff, bne_iff_ne, decide_eq_true_eq, ne_eq, ← toNat_inj, extractLsb'_toNat,
      Nat.shiftRight_eq_div_pow]
  rw [getLsbD_63_eq, hne, hne, Bool.eq_iff_iff]
  generalize hq : x.toNat / 140737488355328 = q
  simp only [beq_false, Bool.or_eq_true, Bool.and_eq_true, Bool.not_eq_true', decide_eq_true_eq,
    decide_eq_false_iff_not, toNat_ofNat]
  rw [InRange, toInt_eq_toNat_cond]
  split_ifs <;> omega

end Regions

/-- The sum of an accumulator in range and an addend may wrap around at 64 bits, and then its
sign is not that of the two. -/
theorem toInt_acc (this : MultReg) (useH : (code this).useH = true)
    (range : InRange (mac this).toInt) :
    (acc this).toInt = (c this).toInt + (mac this).toInt ∨
      0 ≤ (c this).toInt ∧ 0 ≤ (mac this).toInt ∧ (acc this).toInt < 0 ∧
          ¬ InRange (acc this).toInt ∧ 2 ^ 47 - 1 ≤ (c this).toInt + (mac this).toInt ∨
      (c this).toInt < 0 ∧ (mac this).toInt < 0 ∧ 0 ≤ (acc this).toInt ∧
          ¬ InRange (acc this).toInt ∧ (c this).toInt + (mac this).toInt ≤ -2 ^ 47 := by
  have hlo := le_toInt (c this)
  have hhi := toInt_lt (x := c this)
  have hsum : (acc this).toInt = ((c this).toInt + (mac this).toInt).bmod (2 ^ 64) := by
    rw [acc_eq this useH, toInt_add]
  obtain ⟨h1, h2⟩ := range
  rw [Int.bmod_def] at hsum
  simp only [InRange] at *
  omega

/-- With an accumulator in range the saturation of the 48-bit mode is a clamp of the sum. -/
theorem toInt_saturate64 (this : MultReg) (op : this.resultOp = .saturate64)
    (useH : (code this).useH = true) (range : InRange (mac this).toInt) :
    (saturate this).2.toInt = clamp48 ((c this).toInt + (mac this).toInt) := by
  have hmach : this.mach.getLsbD 31 = decide ((mac this).toInt < 0) := by
    rw [← getLsbD_63_eq, mac, getLsbD_append, if_neg (by decide)]
  have hregion : region64 this = ofBool (decide ((mac this).toInt < 0)) ++
      ofBool (decide ((acc this).toInt < 0)) ++ ofBool (!decide (InRange (acc this).toInt)) := by
    rw [region64, overflow_eq, hmach, getLsbD_63_eq]
  rw [saturate, op]
  simp only [hregion, getLsbD_63_eq, decide_eq_false_iff_not]
  have above {x : ℤ} (h : 2 ^ 47 - 1 ≤ x) : clamp48 x = p48max.toInt := clamp_of_ge h (by decide)
  have below {x : ℤ} (h : x ≤ -2 ^ 47) : clamp48 x = n48max.toInt := clamp_of_le h (by decide)
  rcases toInt_acc this useH range with sum | ⟨hc, hm, ha, ho, high⟩ | ⟨hc, hm, ha, ho, low⟩
  · rw [← sum]
    obtain ⟨hmlo, hmhi⟩ := range
    have inside (h : InRange (acc this).toInt) : clamp48 (acc this).toInt = (acc this).toInt :=
      clamp_of_mem h.1 h.2
    have overflow (h : ¬InRange (acc this).toInt) (ha : ¬(acc this).toInt < 0) :
        clamp48 (acc this).toInt = p48max.toInt :=
      above (by unfold InRange at h; omega)
    have underflow (h : ¬InRange (acc this).toInt) (ha : (acc this).toInt < 0) :
        clamp48 (acc this).toInt = n48max.toInt :=
      below (by unfold InRange at h; omega)
    by_cases hm : (mac this).toInt < 0 <;> by_cases ha : (acc this).toInt < 0 <;>
      by_cases ho : InRange (acc this).toInt <;> by_cases hc : (c this).toInt < 0 <;>
      simp [hm, ha, ho, hc, inside, overflow, underflow]
    -- what is left contradicts the sum: two terms of one sign and a sum of the other
    all_goals omega
  · rw [above high]
    simp [not_lt.mpr hc, not_lt.mpr hm, ha, ho]
  · rw [below low]
    simp [hc, hm, not_lt.mpr ha, ho]

/-! ### The two parts of a product -/

/-- The part of the product that the first state adds. -/
def lowPart (a b : BitVec 32) : ℤ := (a.extractLsb' 0 31).toNat * (b.extractLsb' 0 16).toNat

/-- The part of the product that the second state adds. -/
def highPart (a b : BitVec 32) : ℤ := a.toInt * b.toInt - lowPart a b

theorem lowPart_nonneg (a b : BitVec 32) : 0 ≤ lowPart a b := by
  exact mul_nonneg (Int.natCast_nonneg _) (Int.natCast_nonneg _)

theorem abs_product_le (a b : BitVec 32) : |a.toInt * b.toInt| ≤ 2 ^ 62 := by
  have bound (x : BitVec 32) : |x.toInt| ≤ 2 ^ 31 := by
    have h1 := x.le_toInt
    have h2 := x.toInt_lt
    rw [abs_le]
    omega
  calc |a.toInt * b.toInt| = |a.toInt| * |b.toInt| := abs_mul _ _
    _ ≤ 2 ^ 31 * 2 ^ 31 := mul_le_mul (bound a) (bound b) (abs_nonneg _) (by decide)
    _ = 2 ^ 62 := by norm_num

theorem toNat_low_halves (b : BitVec 32) : ((b.extractLsb' 0 31).toNat : ℤ) =
    2 ^ 16 * (b.extractLsb' 16 15).toNat + (b.extractLsb' 0 16).toNat := by
  simp only [extractLsb'_toNat, Nat.shiftRight_eq_div_pow]
  omega

/-- The second part is the product of the high half of operand B with the cross
terms of the signs, sixteen places up. -/
theorem highPart_eq (a b : BitVec 32) :
    highPart a b = 2 ^ 16 * ((a.extractLsb' 0 31).toNat * (b.extractLsb' 16 15).toNat +
      2 ^ 46 * ((a.getLsbD 31).toNat * (b.getLsbD 31).toNat : ℤ) -
      2 ^ 15 * ((a.getLsbD 31).toNat * (b.extractLsb' 0 31).toNat +
        (b.getLsbD 31).toNat * (a.extractLsb' 0 31).toNat : ℤ)) := by
  have ha := toInt_eq_low_sub_sign (n := 31) a
  have hb := toInt_eq_low_sub_sign (n := 31) b
  have split := toNat_low_halves b
  rw [highPart, lowPart, ha, hb]
  linear_combination ((a.extractLsb' 0 31).toNat : ℤ) * split

/-- What one saturating `MAC.L` makes of the accumulator. -/
def maclStep (total : ℤ) (a b : BitVec 32) : ℤ :=
  clamp48 (clamp48 (total + lowPart a b) + highPart a b)

/-- The low part does not lift the accumulator above the range, or the rest of
the product does not lead back, or the sum lies below the range. -/
def NotClipped (total : ℤ) (a b : BitVec 32) : Prop :=
  total + lowPart a b ≤ 2 ^ 47 - 1 ∨ lowPart a b ≤ a.toInt * b.toInt ∨
    total + a.toInt * b.toInt ≤ -2 ^ 47

theorem maclStep_eq_iff {total : ℤ} (range : InRange total) (a b : BitVec 32) :
    maclStep total a b = clamp48 (total + a.toInt * b.toInt) ↔ NotClipped total a b := by
  have h := clamp_add_clamp_eq_iff (q := highPart a b) (by decide : (-2 ^ 47 : ℤ) < 2 ^ 47 - 1)
    range.1 (lowPart_nonneg a b)
  have sum : total + lowPart a b + highPart a b = total + a.toInt * b.toInt := by
    unfold highPart
    ring
  rw [sum] at h
  have lead : 0 ≤ highPart a b ↔ lowPart a b ≤ a.toInt * b.toInt := by
    unfold highPart
    omega
  rw [lead] at h
  exact h

/-! ### The clocks of a command -/

/-- The accumulator that the unit ends in when no further command comes. -/
inductive Owes (this : MultReg) : ℤ → Prop where
  | rest (state : this.state = .nop) (range : InRange (mac this).toInt) :
      Owes this (mac this).toInt
  | first (state : this.state = .macl) (op : this.resultOp = .saturate64)
      (range : InRange (mac this).toInt) :
      Owes this (maclStep (mac this).toInt this.mb this.m2)
  | second (state : this.state = .macl1) (op : this.resultOp = .saturate64)
      (shift : this.shift = false) (cross : this.p23 = 0)
      (abh : (this.abh.toNat : ℤ) = lowPart this.mb this.m2) (range : InRange (mac this).toInt) :
      Owes this (maclStep (mac this).toInt this.mb this.m2)
  | third (state : this.state = .macl2) (op : this.resultOp = .saturate64)
      (addend : (c this).toInt = highPart this.mb this.m2) (range : InRange (mac this).toInt) :
      Owes this (clamp48 ((mac this).toInt + highPart this.mb this.m2))

variable {this : MultReg} {total : ℤ} {i : Clock}

theorem Owes.inRange (h : Owes this total) : InRange total := by
  cases h with
  | rest state range => exact range
  | first | second | third => exact inRange_clamp48 _

theorem Owes.mac_eq (h : Owes this total) (done : this.state = .nop) :
    (mac this).toInt = total := by
  cases h with
  | rest state range => rfl
  | first state | second state | third state => simp [state] at done

theorem code_eq {state : MultState} (h : this.state = state) : code this = multCode state := by
  rw [code, h]

private theorem aa_eq_mb {state : MultState} (h : this.state = state)
    (sela : (multCode state).sela = .mb) : aa this = this.mb := by
  rw [aa, code_eq h, if_pos sela]

/-- The clock that writes the second part back. -/
theorem mac_step_macl2 (state : this.state = .macl2) (op : this.resultOp = .saturate64)
    (addend : (c this).toInt = highPart this.mb this.m2) (range : InRange (mac this).toInt)
    (hi : Passive i) : (mac (step this i.1 i.2)).toInt =
      clamp48 ((mac this).toInt + highPart this.mb this.m2) := by
  have hcode := code_eq state
  rw [mac_step_write this hi (by simp [state]) (by rw [hcode]; rfl) (by rw [hcode]; rfl),
    toInt_saturate64 this op (by rw [hcode]; rfl) range, addend, Int.add_comm]

/-- The first state registers the low half's product and no cross terms. -/
theorem registers_of_first (state : this.state = .macl) (hi : NoCommand i) :
    (step this i.1 i.2).state = .macl1 ∧ (step this i.1 i.2).shift = false ∧
      (step this i.1 i.2).p23 = 0 ∧
      ((step this i.1 i.2).abh.toNat : ℤ) =
        lowPart (step this i.1 i.2).mb (step this i.1 i.2).m2 := by
  have hcode := code_eq state
  refine ⟨?_, ?_, ?_, ?_⟩
  · rw [state_step_of_noCommand this hi, hcode]
    rfl
  · show (code this).shift = false
    rw [hcode]
    rfl
  · exact p23_low this (by rw [hcode]; rfl) (by rw [hcode]; rfl)
  · show ((product this).toNat : ℤ) = _
    rw [toNat_product_low this (by rw [hcode]; rfl) (by rw [hcode]; rfl), aa_eq_mb state rfl,
      m2_step_of_noCommand this hi, mb_step_of_noCommand this hi, lowPart]
    push_cast
    rfl

/-- The second state adds the low half's product. -/
theorem toInt_c_of_first (state : this.state = .macl1) (shift : this.shift = false)
    (cross : this.p23 = 0) (abh : (this.abh.toNat : ℤ) = lowPart this.mb this.m2) :
    (c this).toInt = lowPart this.mb this.m2 := by
  have hcode := code_eq state
  rw [toInt_c_low this (by rw [hcode]; rfl) shift cross, abh]

/-- The second state registers the high half's product and the cross terms, and
the third state adds them. -/
theorem toInt_c_of_second (state : this.state = .macl1) (hi : NoCommand i) :
    (c (step this i.1 i.2)).toInt = highPart (step this i.1 i.2).mb (step this i.1 i.2).m2 := by
  have hcode := code_eq state
  have hnext : (step this i.1 i.2).state = .macl2 := by
    rw [state_step_of_noCommand this hi, hcode]
    rfl
  have hcode' := code_eq hnext
  have habh : (step this i.1 i.2).abh.toNat =
      (this.mb.extractLsb' 0 31).toNat * (this.m2.extractLsb' 16 15).toNat := by
    show (product this).toNat = _
    rw [toNat_product_high this (by rw [hcode]; rfl) (by rw [hcode]; rfl), aa_eq_mb state rfl]
  have hp23 : (step this i.1 i.2).p23.toNat =
      (this.mb.getLsbD 31).toNat * (this.m2.extractLsb' 0 31).toNat +
        (this.m2.getLsbD 31).toNat * (this.mb.extractLsb' 0 31).toNat := by
    show (p2 this + p3 this).toNat = _
    rw [toNat_p23_high this (by rw [hcode]; rfl) (by rw [hcode]; rfl), aa_eq_mb state rfl]
  have hshift : (step this i.1 i.2).shift = true := by
    show (code this).shift = true
    rw [hcode]
    rfl
  have hsmall : (step this i.1 i.2).abh.toNat < 2 ^ 46 := by
    rw [habh, show 2 ^ 46 = 2 ^ 31 * 2 ^ 15 by rfl]
    exact Nat.mul_lt_mul'' (isLt _) (isLt _)
  rw [toInt_c_high _ (by rw [hcode']; rfl) (by rw [hcode']; rfl) hshift hsmall,
    aa_eq_mb hnext rfl, habh, hp23, m2_step_of_noCommand this hi, mb_step_of_noCommand this hi,
    highPart_eq]
  push_cast
  rfl

/-- A clock without a command brings the unit one state further. -/
theorem Owes.step (h : Owes this total) (hi : NoCommand i) : Owes (step this i.1 i.2) total := by
  have hstate := state_step_of_noCommand this hi
  have hm2 := m2_step_of_noCommand this hi
  have hmb := mb_step_of_noCommand this hi
  cases h with
  | rest state range =>
    have hcode := code_eq state
    have hmac := mac_step_keep this hi.passive (by simp [state]) (by rw [hcode]; rfl)
      (by rw [hcode]; rfl)
    rw [← hmac] at range ⊢
    exact .rest (by rw [hstate, hcode]; rfl) range
  | first state op range =>
    have hcode := code_eq state
    have hmac := mac_step_keep this hi.passive (by simp [state]) (by rw [hcode]; rfl)
      (by rw [hcode]; rfl)
    rw [← hmac] at range ⊢
    rw [← hm2, ← hmb]
    obtain ⟨hnext, hshift, hcross, habh⟩ := registers_of_first state hi
    refine .second hnext ?_ hshift hcross habh range
    rw [resultOp_step_of_busy this (by rw [hcode]; rfl), op]
  | second state op shift cross abh range =>
    have hcode := code_eq state
    have haddend := toInt_c_of_first state shift cross abh
    have hmac : (mac (Mult.step this i.1 i.2)).toInt =
        clamp48 ((mac this).toInt + lowPart this.mb this.m2) := by
      rw [mac_step_write this hi.passive (by simp [state]) (by rw [hcode]; rfl)
        (by rw [hcode]; rfl), toInt_saturate64 this op (by rw [hcode]; rfl) range, haddend,
        Int.add_comm]
    rw [maclStep, ← hmac, ← hm2, ← hmb]
    refine .third (by rw [hstate, hcode]; rfl) ?_ ?_ (by rw [hmac]; exact inRange_clamp48 _)
    · rw [resultOp_step_of_busy this (by rw [hcode]; rfl), op]
    · exact toInt_c_of_second state hi
  | third state op addend range =>
    have hcode := code_eq state
    rw [← mac_step_macl2 state op addend range hi.passive]
    exact .rest (by rw [hstate, hcode]; rfl)
      (by rw [mac_step_macl2 state op addend range hi.passive]; exact inRange_clamp48 _)

/-- A command that the unit accepts adds its clamped step to what is owed. -/
theorem Owes.command {a b : BitVec 32} (h : Owes this total) (free : (code this).busy = false)
    (hi : Commands .macl true b i) (hm1 : this.m1 = a) :
    Owes (Mult.step this i.1 i.2) (maclStep total a b) := by
  have hstate := state_step_of_commands this hi free (.inl rfl)
  have hop : (Mult.step this i.1 i.2).resultOp = .saturate64 := by
    obtain ⟨hslot, -, -, hcmd, hs, -⟩ := hi
    simp [Mult.step, nextResultOp, free, hslot, hcmd, hs]
  have hmac : (mac (Mult.step this i.1 i.2)).toInt = total := by
    cases h with
    | rest state range =>
      have hcode := code_eq state
      rw [mac_step_keep this (hi.passive (.inl rfl)) (by simp [state]) (by rw [hcode]; rfl)
        (by rw [hcode]; rfl)]
    | third state op addend range =>
      exact mac_step_macl2 state op addend range (hi.passive (.inl rfl))
    | first state | second state => simp [code_eq state, multCode] at free
  rw [← m2_step_of_commands this hi (.inl rfl), ← hm1, ← mb_step_of_commands this hi (.inl rfl),
    ← hmac]
  exact .first hstate hop (by rw [hmac]; exact h.inRange)

/-! ### Streams -/

variable {clocks : List Clock}

theorem Owes.run (h : Owes this total) (hi : ∀ i ∈ clocks, NoCommand i) :
    Owes (run this clocks) total := by
  induction clocks generalizing this with
  | nil => exact h
  | cons i rest ih => exact ih (h.step (hi i (by simp))) fun j hj => hi j (List.mem_cons_of_mem i hj)

theorem Owes.issue (h : Owes this total) (issue : Issue .macl true)
    (free : (code (Mult.run this issue.lead)).busy = false) :
    Owes (Mult.run this issue.clocks) (maclStep total issue.a issue.b) := by
  rw [Issue.clocks, run_append]
  exact (h.run issue.lead_noCommand).command free issue.command_ok issue.m1_run_lead

/-- The accumulator after a list of instructions, as the unit computes it. -/
def maclFold (total : ℤ) (issues : List (Issue .macl true)) : ℤ :=
  issues.foldl (fun total issue => maclStep total issue.a issue.b) total

/-- The accumulator after a list of instructions, each product clamped once. -/
def clampFold (total : ℤ) (issues : List (Issue .macl true)) : ℤ :=
  issues.foldl (fun total issue => clamp48 (total + issue.a.toInt * issue.b.toInt)) total

theorem Owes.stream (h : Owes this total) {issues : List (Issue .macl true)}
    (accepted : Accepted this issues) :
    Owes (Mult.run this (stream issues)) (maclFold total issues) := by
  induction issues generalizing this total with
  | nil => exact h
  | cons issue rest ih =>
    rw [Mult.stream, List.flatMap_cons, run_append]
    exact ih (h.issue issue accepted.1) accepted.2

/-- What an accepted stream of saturating `MAC.L` leaves in `MACH:MACL`. -/
theorem run_stream_macl {this : MultReg} {issues : List (Issue .macl true)}
    (idle : this.state = .nop) (range : InRange (mac this).toInt)
    (accepted : Accepted this issues) {tail : List Clock} (hi : ∀ i ∈ tail, NoCommand i)
    (long : 3 ≤ tail.length) :
    (run this (stream issues ++ tail)).state = .nop ∧
      (mac (run this (stream issues ++ tail))).toInt = maclFold (mac this).toInt issues := by
  have owes := ((Owes.rest idle range).stream accepted).run hi
  rw [← run_append] at owes
  have done : (run this (stream issues ++ tail)).state = .nop := by
    rw [run_append]
    exact state_run_eq_nop hi long
  exact ⟨done, owes.mac_eq done⟩

theorem Accepted.take {issues : List (Issue .macl true)} (h : Accepted this issues) (k : ℕ) :
    Accepted this (issues.take k) := by
  induction issues generalizing this k with
  | nil => simpa using h
  | cons issue rest ih =>
    cases k with
    | zero => trivial
    | succ k => exact ⟨h.1, ih h.2 k⟩

theorem inRange_clampFold {total : ℤ} (range : InRange total)
    (issues : List (Issue .macl true)) : InRange (clampFold total issues) := by
  induction issues generalizing total with
  | nil => exact range
  | cons issue rest ih => exact ih (inRange_clamp48 _)

/-- A stream of saturating `MAC.L` accumulates the once-clamped products, after
each of its instructions, exactly if none of them is clipped on its way. -/
theorem macl_stream_eq_iff (this : MultReg) (issues : List (Issue .macl true))
    (idle : this.state = .nop) (range : InRange (mac this).toInt)
    (accepted : Accepted this issues) :
    (∀ k ≤ issues.length, ∀ tail : List Clock, (∀ i ∈ tail, NoCommand i) → 3 ≤ tail.length →
      (run this (stream (issues.take k) ++ tail)).state = .nop ∧
        (mac (run this (stream (issues.take k) ++ tail))).toInt =
          clampFold (mac this).toInt (issues.take k)) ↔
      ∀ k (h : k < issues.length),
        NotClipped (clampFold (mac this).toInt (issues.take k)) issues[k].a issues[k].b := by
  have steps := List.foldl_take_eq_iff
    (fun total (issue : Issue .macl true) => maclStep total issue.a issue.b)
    (fun total issue => clamp48 (total + issue.a.toInt * issue.b.toInt)) (mac this).toInt issues
  have clipped : ∀ k (h : k < issues.length), _ := fun k h =>
    maclStep_eq_iff (inRange_clampFold range (issues.take k)) issues[k].a issues[k].b
  constructor
  · intro h k hk
    refine (clipped k hk).mp (steps.mp (fun j hj => ?_) k hk)
    have waits : ∀ i ∈ [waitClock, waitClock, waitClock], NoCommand i := by
      simp [idle_waitClock.noCommand]
    have ran := run_stream_macl idle range (accepted.take j) waits le_rfl
    exact ran.2.symm.trans (h j hj _ waits le_rfl).2
  · intro h k hk tail hi long
    have ran := run_stream_macl idle range (accepted.take k) hi long
    exact ⟨ran.1, ran.2.trans (steps.mpr (fun j hj => (clipped j hj).mpr (h j hj)) k hk)⟩

/-- The unit with the largest 48-bit accumulator. -/
def fullMult : MultReg := { multReset with mach := 0x00007fff#32, macl := 0xffffffff#32 }

/-- One product, `1 * -1`. -/
def clippedPair : Issue .macl true := .tight .macl true 0x00000001#32 0xffffffff#32

theorem macl_stream_eq_iff_clippedPair :
    (∀ k ≤ 1, ∀ tail : List Clock, (∀ i ∈ tail, NoCommand i) → 3 ≤ tail.length →
      (run fullMult (stream ([clippedPair].take k) ++ tail)).state = .nop ∧
        (mac (run fullMult (stream ([clippedPair].take k) ++ tail))).toInt =
          clampFold (mac fullMult).toInt ([clippedPair].take k)) ↔
      ∀ k (h : k < 1), NotClipped (clampFold (mac fullMult).toInt ([clippedPair].take k))
        [clippedPair][k].a [clippedPair][k].b :=
  macl_stream_eq_iff fullMult [clippedPair] rfl (by decide) ⟨by decide, trivial⟩

/-- The accumulator `2 ^ 47 - 1` plus `1 * -1` ends `2 ^ 16 - 1` too low. -/
theorem macl_clipped_wrong :
    Accepted fullMult [clippedPair] ∧ InRange (mac fullMult).toInt ∧
      (run fullMult (stream [clippedPair] ++ [waitClock, waitClock, waitClock])).state = .nop ∧
      (mac (run fullMult (stream [clippedPair] ++ [waitClock, waitClock, waitClock]))).toInt =
        2 ^ 47 - 1 - 2 ^ 16 ∧
      clamp48 ((mac fullMult).toInt + clippedPair.a.toInt * clippedPair.b.toInt) = 2 ^ 47 - 2 :=
  ⟨⟨by decide, trivial⟩, by decide, by decide, by decide, by decide⟩

end JCore.Mult
