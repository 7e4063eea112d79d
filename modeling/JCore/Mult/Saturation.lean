import JCore.Mult.MacL

/-!
# The 48-bit mode

What a clock of the 48-bit mode leaves in `MACH:MACL`, for every accumulator in range and every
addend that the registers give. An addend of the full width may bring the sum over the 64 bits;
the regions of the sum's sign and range tell such a sum from one that fits.

## Main definitions

* `Scheduled`: the states in which the 48-bit mode is on

## Main results

* `scheduled_run`: a run of the unit is in no other
* `saturation_clamps`: the lines of the mode that write back clamp the sum
-/

namespace JCore.Mult

/-- The 48-bit mode is on in the states of a `MAC.L`, and until the next command. -/
def Scheduled (this : MultReg) : Prop :=
  this.resultOp = .saturate64 →
    this.state = .nop ∨ this.state = .macl ∨ this.state = .macl1 ∨ this.state = .macl2

theorem scheduled_step {this : MultReg} (scheduled : Scheduled this) (i : Clock) :
    Scheduled (step this i.1 i.2) := by
  intro op
  change nextResultOp this i.1 i.2 = .saturate64 at op
  change nextState this i.1 i.2 = _ ∨ nextState this i.1 i.2 = _ ∨ nextState this i.1 i.2 = _ ∨
    nextState this i.1 i.2 = _
  by_cases free : (code this).busy = false ∧ i.1 = true
  · -- the mode comes with a command
    rw [nextResultOp, if_pos free] at op
    rw [nextState, if_pos free]
    by_cases macl : i.2.command = .macl ∧ i.2.s = true
    · simp [macl.1]
    · rw [if_neg macl] at op
      split_ifs at op
  · -- and stays while the microcode runs
    rw [nextResultOp, if_neg free] at op
    rw [nextState, if_neg free, code]
    rcases scheduled op with state | state | state | state <;> simp [state, multCode]

theorem scheduled_run (clocks : List Clock) : Scheduled (run multReset clocks) := by
  have start : Scheduled multReset := fun _ => .inl rfl
  revert start
  generalize multReset = this
  intro start
  induction clocks generalizing this with
  | nil => exact start
  | cons i rest ih => exact ih _ (scheduled_step start i)

theorem writesBoth_of_machEn {this : MultReg} (writes : (code this).machEn = true) :
    this.state ≠ .macws1 ∧ (code this).maclEn = true ∧ (code this).useH = true := by
  rw [code] at *
  cases state : this.state <;> simp_all [multCode]

theorem keepsBoth_of_scheduled {this : MultReg} (scheduled : Scheduled this)
    (op : this.resultOp = .saturate64) (keeps : (code this).machEn = false) :
    this.state ≠ .macws1 ∧ (code this).maclEn = false := by
  rw [code] at *
  rcases scheduled op with state | state | state | state <;> simp_all [multCode]

/-- In the 48-bit mode a line that writes back leaves the sum of the accumulator and its addend,
clamped to the range, and a line of a run that does not leaves the accumulator. -/
theorem saturation_clamps :
    (∀ (this : MultReg) (i : Clock), this.resultOp = .saturate64 → (code this).machEn = true →
      InRange (mac this).toInt → Passive i →
        (mac (step this i.1 i.2)).toInt = clamp48 ((mac this).toInt + (c this).toInt) ∧
          InRange (mac (step this i.1 i.2)).toInt) ∧
    ∀ (clocks : List Clock) (i : Clock), (run multReset clocks).resultOp = .saturate64 →
      (code (run multReset clocks)).machEn = false → Passive i →
        mac (step (run multReset clocks) i.1 i.2) = mac (run multReset clocks) := by
  constructor
  · intro this i op writes range passive
    obtain ⟨state, both, useH⟩ := writesBoth_of_machEn writes
    have sum : (mac (step this i.1 i.2)).toInt = clamp48 ((mac this).toInt + (c this).toInt) := by
      rw [mac_step_write this passive state writes both, toInt_saturate64 this op useH range,
        Int.add_comm]
    refine ⟨sum, ?_⟩
    rw [sum]
    exact inRange_clamp48 _
  · intro clocks i op keeps passive
    obtain ⟨state, both⟩ := keepsBoth_of_scheduled (scheduled_run clocks) op keeps
    exact mac_step_keep _ passive state keeps both

/-- The largest accumulator, and an addend that brings the sum over the 64 bits. -/
def wrappingMult : MultReg :=
  { multReset with
    state := .macl2, resultOp := .saturate64, mb := 0x80000000#32, m2 := 0x80000000#32
    mach := 0x00007fff#32, macl := 0xffffffff#32, shift := true, abh := BitVec.allOnes 47 }

theorem saturation_clamps_wrappingMult :
    (mac (step wrappingMult waitClock.1 waitClock.2)).toInt = 2 ^ 47 - 1 ∧
      (acc wrappingMult).toInt < 0 := by
  have clamps := saturation_clamps.1 wrappingMult waitClock rfl rfl (by decide)
    idle_waitClock.noCommand.passive
  exact ⟨clamps.1.trans (by decide), by decide⟩

end JCore.Mult
