import JCore.Mult.MacL

/-!
# MAC.L without saturation

Without the saturation bit the two parts of a product are added modulo
`2 ^ 64`, so nothing is lost between them. The operand that `MACL` multiplies
is the copy in `mb`, which a later load of `m1` does not touch, and a stream
adds up its products whatever the distance of its instructions.

## Main results

* `Pending.step`, `Pending.command`: what is still to be added, clock by clock
* `macl_stream_sum`: an accepted stream adds the signed products
-/

namespace JCore.Mult

open BitVec

/-- `MACH:MACL` as the unit leaves it when no further command comes. -/
inductive Pending (this : MultReg) : BitVec 64 → Prop where
  | rest (state : this.state = .nop) : Pending this (mac this)
  | first (state : this.state = .macl) (op : this.resultOp = .identity) :
      Pending this (mac this + BitVec.ofInt 64 (this.mb.toInt * this.m2.toInt))
  | second (state : this.state = .macl1) (op : this.resultOp = .identity)
      (shift : this.shift = false) (cross : this.p23 = 0)
      (abh : (this.abh.toNat : ℤ) = lowPart this.mb this.m2) :
      Pending this (mac this + BitVec.ofInt 64 (this.mb.toInt * this.m2.toInt))
  | third (state : this.state = .macl2) (op : this.resultOp = .identity)
      (addend : (c this).toInt = highPart this.mb this.m2) :
      Pending this (mac this + BitVec.ofInt 64 (highPart this.mb this.m2))

variable {this : MultReg} {value : BitVec 64} {i : Clock}

theorem Pending.mac_eq (h : Pending this value) (done : this.state = .nop) :
    mac this = value := by
  cases h with
  | rest state => rfl
  | first state | second state | third state => simp [state] at done

/-- Without saturation a line that writes both halves back adds its addend. -/
theorem mac_step_add (h : Passive i) (op : this.resultOp = .identity)
    (hstate : this.state ≠ .macws1) (hh : (code this).machEn = true)
    (hl : (code this).maclEn = true) (useH : (code this).useH = true) {addend : ℤ}
    (hc : (c this).toInt = addend) :
    mac (step this i.1 i.2) = mac this + BitVec.ofInt 64 addend := by
  have hsat : (saturate this).2 = acc this := by rw [saturate, op]
  rw [mac_step_write this h hstate hh hl, hsat, acc_eq this useH, ← hc, ofInt_toInt,
    BitVec.add_comm]

/-- The two parts of a product add up to it. -/
theorem ofInt_parts (a b : BitVec 32) :
    BitVec.ofInt 64 (lowPart a b) + BitVec.ofInt 64 (highPart a b) =
      BitVec.ofInt 64 (a.toInt * b.toInt) := by
  have parts : lowPart a b + highPart a b = a.toInt * b.toInt := by
    unfold highPart
    ring
  rw [← ofInt_add, parts]

/-- A clock without a command brings the unit one state further. -/
theorem Pending.step (h : Pending this value) (hi : NoCommand i) :
    Pending (step this i.1 i.2) value := by
  have hstate := state_step_of_noCommand this hi
  have hm2 := m2_step_of_noCommand this hi
  have hmb := mb_step_of_noCommand this hi
  cases h with
  | rest state =>
    have hcode := code_eq state
    rw [← mac_step_keep this hi.passive (by simp [state]) (by rw [hcode]; rfl)
      (by rw [hcode]; rfl)]
    exact .rest (by rw [hstate, hcode]; rfl)
  | first state op =>
    have hcode := code_eq state
    obtain ⟨hnext, hshift, hcross, habh⟩ := registers_of_first state hi
    rw [← mac_step_keep this hi.passive (by simp [state]) (by rw [hcode]; rfl)
      (by rw [hcode]; rfl), ← hm2, ← hmb]
    refine .second hnext ?_ hshift hcross habh
    rw [resultOp_step_of_busy this (by rw [hcode]; rfl), op]
  | second state op shift cross abh =>
    have hcode := code_eq state
    -- the low part is in `MACH:MACL` after this clock, the rest of the product is owed
    have hmac := mac_step_add hi.passive op (by simp [state]) (by rw [hcode]; rfl)
      (by rw [hcode]; rfl) (by rw [hcode]; rfl) (toInt_c_of_first state shift cross abh)
    rw [← ofInt_parts, ← BitVec.add_assoc, ← hmac, ← hm2, ← hmb]
    refine .third (by rw [hstate, hcode]; rfl) ?_ (toInt_c_of_second state hi)
    rw [resultOp_step_of_busy this (by rw [hcode]; rfl), op]
  | third state op addend =>
    have hcode := code_eq state
    rw [← mac_step_add hi.passive op (by simp [state]) (by rw [hcode]; rfl) (by rw [hcode]; rfl)
      (by rw [hcode]; rfl) addend]
    exact .rest (by rw [hstate, hcode]; rfl)

/-- A command that the unit accepts adds its product to what is pending. -/
theorem Pending.command {a b : BitVec 32} (h : Pending this value)
    (free : (code this).busy = false) (hi : Commands .macl false b i) (hm1 : this.m1 = a) :
    Pending (Mult.step this i.1 i.2) (value + BitVec.ofInt 64 (a.toInt * b.toInt)) := by
  have hstate := state_step_of_commands this hi free (.inl rfl)
  have hop : (Mult.step this i.1 i.2).resultOp = .identity := by
    obtain ⟨hslot, -, -, hcmd, hs, -⟩ := hi
    simp [Mult.step, nextResultOp, free, hslot, hcmd, hs]
  have hmac : mac (Mult.step this i.1 i.2) = value := by
    cases h with
    | rest state =>
      have hcode := code_eq state
      rw [mac_step_keep this (hi.passive (.inl rfl)) (by simp [state]) (by rw [hcode]; rfl)
        (by rw [hcode]; rfl)]
    | third state op addend =>
      have hcode := code_eq state
      exact mac_step_add (hi.passive (.inl rfl)) op (by simp [state]) (by rw [hcode]; rfl)
        (by rw [hcode]; rfl) (by rw [hcode]; rfl) addend
    | first state | second state => simp [code_eq state, multCode] at free
  rw [← m2_step_of_commands this hi (.inl rfl), ← hm1, ← mb_step_of_commands this hi (.inl rfl),
    ← hmac]
  exact .first hstate hop

/-! ### Streams -/

variable {clocks : List Clock}

theorem Pending.run (h : Pending this value) (hi : ∀ i ∈ clocks, NoCommand i) :
    Pending (run this clocks) value := by
  induction clocks generalizing this with
  | nil => exact h
  | cons i rest ih =>
    have hfirst := h.step (hi i (by simp))
    exact ih hfirst fun j hj => hi j (List.mem_cons_of_mem i hj)

theorem Pending.issue (h : Pending this value) (issue : Issue .macl false)
    (free : (code (Mult.run this issue.lead)).busy = false) :
    Pending (Mult.run this issue.clocks)
      (value + BitVec.ofInt 64 (issue.a.toInt * issue.b.toInt)) := by
  rw [Issue.clocks, run_append]
  exact (h.run issue.lead_noCommand).command free issue.command_ok issue.m1_run_lead

/-- The sum of the signed products of a list of instructions. -/
def signedSum (issues : List (Issue .macl false)) : ℤ :=
  (issues.map fun issue => issue.a.toInt * issue.b.toInt).sum

theorem Pending.stream (h : Pending this value) {issues : List (Issue .macl false)}
    (accepted : Accepted this issues) :
    Pending (Mult.run this (stream issues)) (value + BitVec.ofInt 64 (signedSum issues)) := by
  induction issues generalizing this value with
  | nil => simpa [signedSum, Mult.stream] using h
  | cons issue rest ih =>
    have htail := ih (h.issue issue accepted.1) accepted.2
    rw [BitVec.add_assoc, ← ofInt_add] at htail
    rw [Mult.stream, List.flatMap_cons, run_append, signedSum, List.map_cons, List.sum_cons]
    exact htail

/-- A stream of `MAC.L` without saturation adds the sum of its signed products
to `MACH:MACL`, modulo `2 ^ 64`. -/
theorem macl_stream_sum (this : MultReg) (issues : List (Issue .macl false))
    (idle : this.state = .nop) (accepted : Accepted this issues) (tail : List Clock)
    (hi : ∀ i ∈ tail, NoCommand i) (long : 3 ≤ tail.length) :
    (run this (stream issues ++ tail)).state = .nop ∧
      mac (run this (stream issues ++ tail)) =
        mac this + BitVec.ofInt 64 (signedSum issues) := by
  have done : (run this (stream issues ++ tail)).state = .nop := by
    rw [run_append]
    exact state_run_eq_nop hi long
  have pending := ((Pending.rest idle).stream accepted).run hi
  rw [← run_append] at pending
  exact ⟨done, pending.mac_eq done⟩

/-- A pair whose command comes in the clock in which the unit is free again
after the previous one, whose successor loads `m1` in the clock after it. -/
def packedPairs : List (Issue .macl false) :=
  [.tight .macl false 0x80000000#32 0xffffffff#32,
    { Issue.tight .macl false 0xffffffff#32 0x80000000#32 with
      between := [waitClock]
      between_idle := by simp [idle_waitClock] }]

theorem macl_stream_sum_packedPairs :
    (run fullMult (stream packedPairs ++ [waitClock, waitClock, waitClock])).state = .nop ∧
      mac (run fullMult (stream packedPairs ++ [waitClock, waitClock, waitClock])) =
        mac fullMult + BitVec.ofInt 64 (signedSum packedPairs) :=
  macl_stream_sum fullMult packedPairs rfl ⟨by decide, by decide, trivial⟩ _
    (by simp [idle_waitClock.noCommand]) le_rfl

end JCore.Mult
