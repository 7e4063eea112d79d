import JCore.Lib.Bits
import JCore.Mult.Unit
import Mathlib.Logic.Function.Iterate

/-!
# Issuing MAC instructions to the multiplier

The clocks a `MAC.W` or `MAC.L` takes at the inputs of the unit: the first
operand is loaded into `m1`, later the command comes with the second operand,
and between the two, before them and after them lie clocks without a slot or
slots of instructions that leave the unit alone. Nothing is said about the
distance between a command and the load of the next instruction.
-/

namespace JCore.Mult

/-- A clock of the unit: the slot bit and the inputs. -/
abbrev Clock := Bool × MultI

/-- The clock leaves the unit alone: it is no slot, or a slot without a command
and without a register write. -/
def Idle (i : Clock) : Prop :=
  i.1 = true → i.2.command = .nop ∧ i.2.wrM1 = false ∧ i.2.wrMach = false ∧ i.2.wrMacl = false

/-- The slot loads operand `a` into `m1` and does nothing else. -/
def Loads (a : BitVec 32) (i : Clock) : Prop :=
  i.1 = true ∧ i.2.wrM1 = true ∧ i.2.in1 = a ∧ i.2.command = .nop ∧
    i.2.wrMach = false ∧ i.2.wrMacl = false

/-- The slot gives command `cmd` with saturation bit `s` and operand `b`. -/
def Commands (cmd : MultState) (s : Bool) (b : BitVec 32) (i : Clock) : Prop :=
  i.1 = true ∧ i.2.wrM1 = false ∧ i.2.in2 = b ∧ i.2.command = cmd ∧ i.2.s = s ∧
    i.2.wrMach = false ∧ i.2.wrMacl = false

/-- The clocks of one instruction, from the end of the previous one's command to
its own command. -/
structure Issue (cmd : MultState) (s : Bool) where
  a : BitVec 32
  b : BitVec 32
  before : List Clock
  load : Clock
  between : List Clock
  command : Clock
  before_idle : ∀ i ∈ before, Idle i
  load_ok : Loads a load
  between_idle : ∀ i ∈ between, Idle i
  command_ok : Commands cmd s b command

namespace Issue

variable {cmd : MultState} {s : Bool}

/-- The clocks up to the command. -/
def lead (issue : Issue cmd s) : List Clock := issue.before ++ issue.load :: issue.between

/-- All clocks of the instruction. -/
def clocks (issue : Issue cmd s) : List Clock := issue.lead ++ [issue.command]

/-- The next instruction loads its operand in the clock after this one's command. -/
def Overlaps (next : Issue cmd s) : Prop := next.before = []

instance (next : Issue cmd s) : Decidable next.Overlaps :=
  inferInstanceAs (Decidable (next.before = []))

/-- The tightest schedule for an operand pair: the load and the command in two
successive slots. -/
def tight (cmd : MultState) (s : Bool) (a b : BitVec 32) : Issue cmd s where
  a := a
  b := b
  before := []
  load := (true, ⟨true, .nop, false, false, false, a, 0⟩)
  between := []
  command := (true, ⟨false, cmd, s, false, false, 0, b⟩)
  before_idle := by simp
  load_ok := ⟨rfl, rfl, rfl, rfl, rfl, rfl⟩
  between_idle := by simp
  command_ok := ⟨rfl, rfl, rfl, rfl, rfl, rfl, rfl⟩

end Issue

/-- The clocks of a list of instructions. -/
def stream {cmd : MultState} {s : Bool} (issues : List (Issue cmd s)) : List Clock :=
  issues.flatMap Issue.clocks

/-- Every command of the list comes while the unit is not busy. -/
def Accepted {cmd : MultState} {s : Bool} : MultReg → List (Issue cmd s) → Prop
  | _, [] => True
  | this, issue :: rest =>
    (code (run this issue.lead)).busy = false ∧ Accepted (run this issue.clocks) rest

/-- A clock without a slot. -/
def waitClock : Clock := (false, ⟨false, .nop, false, false, false, 0, 0⟩)

theorem idle_waitClock : Idle waitClock := by simp [Idle, waitClock]

/-! ### What a MAC clock leaves alone

A clock of the schedule never clears or writes `MACH` or `MACL`, so they change
only by what the microcode writes back. -/

/-- The clock gives at most a MAC command and writes neither `MACH` nor `MACL`. -/
def Passive (i : Clock) : Prop :=
  i.1 = true → (i.2.command = .nop ∨ i.2.command = .macl ∨ i.2.command = .macw) ∧
    i.2.wrMach = false ∧ i.2.wrMacl = false

/-- The clock gives no command and writes neither `MACH` nor `MACL`. -/
def NoCommand (i : Clock) : Prop :=
  i.1 = true → i.2.command = .nop ∧ i.2.wrMach = false ∧ i.2.wrMacl = false

variable {cmd : MultState} {s : Bool} {a b : BitVec 32} {i : Clock}

theorem Idle.noCommand (h : Idle i) : NoCommand i := fun hs => ⟨(h hs).1, (h hs).2.2⟩

theorem Loads.noCommand (h : Loads a i) : NoCommand i := fun _ => h.2.2.2

theorem NoCommand.passive (h : NoCommand i) : Passive i := fun hs => ⟨.inl (h hs).1, (h hs).2⟩

theorem Commands.passive (h : Commands cmd s b i) (mac : cmd = .macl ∨ cmd = .macw) :
    Passive i := fun _ =>
  ⟨.inr (by rw [h.2.2.2.1]; exact mac), h.2.2.2.2.2⟩

variable (this : MultReg)

theorem m1_step_of_idle (h : Idle i) : (step this i.1 i.2).m1 = this.m1 := by
  rcases hs : i.1
  · simp [step]
  · simp [step, (h hs).2.1]

theorem m1_step_of_loads (h : Loads a i) : (step this i.1 i.2).m1 = a := by
  simp [step, h.1, h.2.1, h.2.2.1]

theorem m1_step_of_commands (h : Commands cmd s b i) : (step this i.1 i.2).m1 = this.m1 := by
  simp [step, h.2.1]

theorem m2_step_of_noCommand (h : NoCommand i) : (step this i.1 i.2).m2 = this.m2 := by
  rcases hs : i.1
  · simp [step]
  · simp [step, (h hs).1]

theorem mb_step_of_noCommand (h : NoCommand i) : (step this i.1 i.2).mb = this.mb := by
  rcases hs : i.1
  · simp [step]
  · simp [step, (h hs).1]

/-- A line that frees the unit leads to the idle state. -/
theorem code_state_of_not_busy (h : (code this).busy = false) : (code this).state = .nop := by
  revert h
  unfold code
  cases this.state <;> decide

theorem state_step_of_noCommand (h : NoCommand i) :
    (step this i.1 i.2).state = (code this).state := by
  show nextState this i.1 i.2 = _
  unfold nextState
  split_ifs with hfree hsat
  · simp [(h hfree.2).1] at hsat
  · rw [(h hfree.2).1, code_state_of_not_busy this hfree.1]
  · rfl

/-- While the unit is busy the pending saturation stays. -/
theorem resultOp_step_of_busy (h : (code this).busy = true) :
    (step this i.1 i.2).resultOp = this.resultOp := by
  simp [step, nextResultOp, h]

theorem state_step_of_commands (h : Commands cmd s b i) (free : (code this).busy = false)
    (plain : cmd = .macl ∨ s = false) : (step this i.1 i.2).state = cmd := by
  obtain ⟨hslot, -, -, hcmd, hs, -⟩ := h
  rcases plain with rfl | rfl <;> simp [step, nextState, free, hslot, hcmd, hs]

theorem m2_step_of_commands (h : Commands cmd s b i) (mac : cmd = .macl ∨ cmd = .macw) :
    (step this i.1 i.2).m2 = b := by
  obtain ⟨hslot, -, hin, hcmd, -⟩ := h
  rcases mac with rfl | rfl <;> simp [step, hslot, hcmd, hin]

theorem mb_step_of_commands (h : Commands cmd s b i) (mac : cmd = .macl ∨ cmd = .macw) :
    (step this i.1 i.2).mb = this.m1 := by
  obtain ⟨hslot, -, -, hcmd, -⟩ := h
  rcases mac with rfl | rfl <;> simp [step, hslot, hcmd]

theorem append_halves (x : BitVec 64) : x.extractLsb' 32 32 ++ x.extractLsb' 0 32 = x := by
  have hx : x.toNat < 2 ^ 64 := x.isLt
  apply BitVec.eq_of_toNat_eq
  refine (BitVec.toNat_append_add _ _).trans ?_
  rw [BitVec.extractLsb'_toNat, BitVec.extractLsb'_toNat, Nat.shiftRight_eq_div_pow,
    Nat.shiftRight_zero]
  omega

/-- A passive clock in a line that writes nothing back keeps `MACH:MACL`. -/
theorem mac_step_keep (h : Passive i) (hstate : this.state ≠ .macws1)
    (hh : (code this).machEn = false) (hl : (code this).maclEn = false) :
    mac (step this i.1 i.2) = mac this := by
  rcases hs : i.1
  · simp [mac, step, nextMach, nextMacl, hstate, hh, hl]
  · obtain ⟨hcmd, hwh, hwl⟩ := h hs
    rcases hcmd with hcmd | hcmd | hcmd <;>
      simp [mac, step, nextMach, nextMacl, hstate, hh, hl, hwh, hwl, hcmd]

/-- A passive clock in a line that writes both halves back takes the
accumulator. -/
theorem mac_step_write (h : Passive i) (hstate : this.state ≠ .macws1)
    (hh : (code this).machEn = true) (hl : (code this).maclEn = true) :
    mac (step this i.1 i.2) = (saturate this).2 := by
  rw [← append_halves (saturate this).2]
  rcases hs : i.1
  · simp [mac, step, nextMach, nextMacl, hstate, hh, hl]
  · obtain ⟨hcmd, hwh, hwl⟩ := h hs
    rcases hcmd with hcmd | hcmd | hcmd <;>
      simp [mac, step, nextMach, nextMacl, hstate, hh, hl, hwh, hwl, hcmd]

/-- With both halves in use the accumulator adds to `MACH:MACL`. -/
theorem acc_eq (h : (code this).useH = true) : acc this = c this + mac this := by
  rw [acc, h]
  simp only [toSlv, if_true, BitVec.and_allOnes]
  rfl

/-! ### Lists of clocks -/

section Lists

variable {this} {clocks : List Clock}

/-- Without commands the unit follows its microcode. -/
theorem state_run_of_noCommand (h : ∀ i ∈ clocks, NoCommand i) :
    (run this clocks).state = (fun st => (multCode st).state)^[clocks.length] this.state := by
  induction clocks generalizing this with
  | nil => rfl
  | cons i rest ih =>
    rw [run_cons, ih fun j hj => h j (List.mem_cons_of_mem i hj),
      state_step_of_noCommand this (h i (by simp))]
    rfl

private theorem next_three (st : MultState) :
    (fun st => (multCode st).state)^[3] st = .nop := by
  cases st <;> rfl

/-- Three clocks without a command complete whatever is under way. -/
theorem state_run_eq_nop (h : ∀ i ∈ clocks, NoCommand i) (long : 3 ≤ clocks.length) :
    (run this clocks).state = .nop := by
  rw [state_run_of_noCommand h, ← Nat.sub_add_cancel long, Function.iterate_add_apply, next_three]
  exact Function.iterate_fixed (f := fun st => (multCode st).state) rfl _

theorem m1_run_of_idle (h : ∀ i ∈ clocks, Idle i) : (run this clocks).m1 = this.m1 := by
  induction clocks generalizing this with
  | nil => rfl
  | cons i rest ih =>
    rw [run_cons, ih fun j hj => h j (List.mem_cons_of_mem i hj),
      m1_step_of_idle this (h i (by simp))]

end Lists

namespace Issue

variable {this} (issue : Issue cmd s)

theorem lead_noCommand : ∀ i ∈ issue.lead, NoCommand i := by
  intro i hi
  simp only [lead, List.mem_append, List.mem_cons] at hi
  rcases hi with hi | rfl | hi
  · exact (issue.before_idle i hi).noCommand
  · exact issue.load_ok.noCommand
  · exact (issue.between_idle i hi).noCommand

/-- When the command comes its first operand is in `m1`. -/
theorem m1_run_lead : (run this issue.lead).m1 = issue.a := by
  rw [lead, run_append, run_cons, m1_run_of_idle issue.between_idle,
    m1_step_of_loads _ issue.load_ok]

end Issue

end JCore.Mult
