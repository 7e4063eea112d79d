import JCore.Decode.Sequencing

/-!
# Delay slots

A line with `delay_jump` is the last of its operation, and the core remembers it
until the next line is issued. At the boundary between, an event is not taken;
the only system operation that can be chosen there is the one for an instruction
that is illegal in a delay slot. A line with `maskint_next` keeps interrupts out
of the next slot in the same way.

## Main results

* `dispatch_of_delayJump`: every line with `delay_jump` dispatches
* `RomRun.delayed_branch_not_split`: what can be chosen in a delay slot and after
  a line that masks interrupts
-/

namespace JCore

/-- A run of the microcode decoder: the start, and for every clock the inputs
and T. -/
structure RomRun where
  start : DecoderReg
  clk : ℕ → DecoderI × Bool

namespace RomRun

variable (run : RomRun)

/-- The decoder before clock `t`. -/
def state : ℕ → DecoderReg := trace (fun this c => Decoder.romStep this c.1 c.2) run.start run.clk

/-- The microcode line presented in clock `t`. -/
def line (t : ℕ) : TableLine := Decoder.romLine (run.state t) (run.clk t).1 (run.clk t).2

/-- The run with the lines of the microcode as inputs. -/
def toRun : DecoderRun where
  decodeType := .rom
  predecode := predecodeRomAddr
  start := run.start
  clk t := ((run.clk t).1, run.line t)

theorem state_toRun (t : ℕ) : run.toRun.state t = run.state t := by
  induction t with
  | zero => rfl
  | succ t ih =>
    rw [DecoderRun.state_succ, ih]
    rfl

end RomRun

/-! ### The microcode -/

section Microcode

open DecodeTable

/-- A delayed branch ends with its jump. -/
theorem dispatch_of_delayJump (addr : BitVec 8) (h : delayJump (microcodeLine addr) = true)
    (tBcc : Bool) : dispatch (microcodeLine addr) tBcc = true := by
  have test := microcodeLine_forall
    (p := fun line => !delayJump line || (dispatch line true && dispatch line false))
    (by decide +kernel) addr
  rw [h, Bool.not_true, Bool.false_or, Bool.and_eq_true] at test
  cases tBcc
  · exact test.2
  · exact test.1

end Microcode

/-- The operation is the system operation `instr`. -/
def Operation.Selects (op : Operation) (instr : SystemInstr) : Prop :=
  op.plane = .systemInstr ∧ op.addr = systemInstrRomAddrs instr

/-! ### Choosing the next operation -/

section Choice

variable {predecode : BitVec 16 → BitVec 8} {this : DecodeCoreReg} {front : DispatchI}

theorem systemInstrRomAddrs_inj {x y : SystemInstr} :
    systemInstrRomAddrs x = systemInstrRomAddrs y ↔ x = y := by
  cases x <;> cases y <;> decide

theorem selects_systemOpInstr {x y : SystemInstr} :
    (DecodeCore.systemOpInstr .rom x).Selects y ↔ y = x := by
  simp only [Operation.Selects, DecodeCore.systemOpInstr, DecodeCore.systemOp, if_true, true_and,
    systemInstrRomAddrs_inj, eq_comm]

theorem not_selects_normalOp {word : BitVec 16} {instr : SystemInstr} :
    ¬(DecodeCore.normalOp .rom predecode word).Selects instr := by
  simp [Operation.Selects, DecodeCore.normalOp]

/-- In a delay slot the word is checked and nothing else matters. -/
theorem nextOp_of_delaySlot (h : this.delaySlot = true) :
    DecodeCore.nextOp .rom predecode this front =
      if front.illegalDelaySlot || front.illegalInstr then DecodeCore.systemOpInstr .rom .slotIllegal
      else DecodeCore.normalOp .rom predecode front.ifDr := by
  rw [DecodeCore.nextOp, DecodeCore.eventTaken, h]
  cases front.illegalDelaySlot <;> cases front.illegalInstr <;> rfl

theorem selects_nextOp_of_delaySlot (h : this.delaySlot = true) (instr : SystemInstr) :
    (DecodeCore.nextOp .rom predecode this front).Selects instr ↔
      instr = .slotIllegal ∧ (front.illegalDelaySlot || front.illegalInstr) = true := by
  rw [nextOp_of_delaySlot h]
  split_ifs with hflag
  · rw [selects_systemOpInstr, hflag]
    simp
  · simp [not_selects_normalOp, hflag]

/-- A masked interrupt is not chosen. -/
theorem not_selects_interrupt (h : this.maskint = true) :
    ¬(DecodeCore.nextOp .rom predecode this front).Selects .interrupt := by
  rw [DecodeCore.nextOp]
  split_ifs with hevent
  · -- an event that is taken is one of the others
    have hcmd : front.eventI.cmd ≠ .interrupt := by
      intro hcmd
      simp [DecodeCore.eventTaken, h, hcmd] at hevent
    simp only [DecodeCore.systemOpEvent, Operation.Selects, DecodeCore.systemOp, if_true, true_and,
      systemInstrRomAddrs_inj]
    cases hc : front.eventI.cmd
    · exact absurd hc hcmd
    all_goals decide
  · rw [selects_systemOpInstr]
    decide
  · rw [selects_systemOpInstr]
    decide
  · rw [selects_systemOpInstr]
    decide
  · exact not_selects_normalOp

end Choice

/-! ### Between a branch and its delay slot -/

namespace DecoderRun

variable {run : DecoderRun} {m t : ℕ}

theorem delaySlot_succ_of_slot (h : (run.clk t).1.slot = true) :
    (run.state (t + 1)).core.delaySlot =
      if run.stalled t then (run.state t).core.delaySlot else (run.clk t).2.delayJump := by
  rw [state_succ, Decoder.step, DecodeCore.step, h]
  rfl

theorem maskint_succ_of_slot (h : (run.clk t).1.slot = true) :
    (run.state (t + 1)).core.maskint = ((run.clk t).1.maskInt || (run.clk t).2.maskintNext) := by
  rw [state_succ, Decoder.step, DecodeCore.step, h]
  rfl

/-- While no line is issued the core remembers the jump, and the operation is
either being chosen or the one chosen since. -/
theorem waiting_of_delayJump (issued : run.issued m = true)
    (jump : (run.clk m).2.delayJump = true) (last : (run.clk m).2.dispatch = true) (hmt : m < t)
    (wait : ∀ j, m < j → j < t → run.issued j = false) :
    (run.state t).core.delaySlot = true ∧
      (run.boundary t = false → ∃ f, m < f ∧ f < t ∧ (run.clk f).1.slot = true ∧
        run.boundary f = true ∧ run.presented t = run.presented f) := by
  obtain ⟨hslot, hfree⟩ : (run.clk m).1.slot = true ∧ run.stalled m = false := by
    simpa [DecoderRun.issued] using issued
  induction t, hmt using Nat.le_induction with
  | base =>
    rw [delaySlot_succ_of_slot hslot, hfree, boundary_succ hslot, issued, jump, last]
    simp
  | succ t hmt ih =>
    obtain ⟨hdelay, hop⟩ := ih fun j hj hjt => wait j hj (Nat.lt_succ_of_lt hjt)
    have hnot := wait t hmt (Nat.lt_succ_self t)
    rcases hs : (run.clk t).1.slot with _ | _
    · have hsame := state_succ_of_not_slot hs
      refine ⟨by rw [hsame, hdelay], fun hb => ?_⟩
      have hbt : run.boundary t = false := by rw [← hb, boundary, boundary, hsame]
      obtain ⟨f, hmf, hft, hrest⟩ := hop hbt
      refine ⟨f, hmf, Nat.lt_succ_of_lt hft, hrest.1, hrest.2.1, ?_⟩
      rw [presented_of_not_boundary hb, hsame, ← presented_of_not_boundary hbt, hrest.2.2]
    · have hstall : run.stalled t = true := by simpa [DecoderRun.issued, hs] using hnot
      refine ⟨by rw [delaySlot_succ_of_slot hs, hstall, if_pos rfl, hdelay], fun hb => ?_⟩
      have hpresented : run.presented (t + 1) = run.presented t := by
        rw [presented_of_not_boundary hb, op_succ_of_slot hs, hstall, if_pos rfl]
      rcases hbt : run.boundary t with _ | _
      · obtain ⟨f, hmf, hft, hf, hbf, hpf⟩ := hop hbt
        exact ⟨f, hmf, Nat.lt_succ_of_lt hft, hf, hbf, hpresented.trans hpf⟩
      · exact ⟨t, hmt, Nat.lt_succ_self t, hs, hbt, hpresented⟩

/-- Until the next slot the core remembers that a line masked interrupts. -/
theorem maskint_of_maskintNext (hslot : (run.clk m).1.slot = true)
    (mask : (run.clk m).2.maskintNext = true) (hmt : m < t)
    (wait : ∀ j, m < j → j < t → (run.clk j).1.slot = false) :
    (run.state t).core.maskint = true := by
  induction t, hmt using Nat.le_induction with
  | base => rw [maskint_succ_of_slot hslot, mask, Bool.or_true]
  | succ t hmt ih =>
    rw [state_succ_of_not_slot (wait t hmt (Nat.lt_succ_self t))]
    exact ih fun j hj hjt => wait j hj (Nat.lt_succ_of_lt hjt)

end DecoderRun

namespace RomRun

variable (run : RomRun)

/-- From the issue of a line with `delay_jump` to the issue of the next line,
the one operation chosen is a system operation exactly if the word is flagged,
and then it is the one for the delay slot. -/
def DelaySlotKept : Prop :=
  ∀ m t, m < t → run.toRun.issued m = true → (run.line m).delayJump = true →
    (∀ j, m < j → j < t → run.toRun.issued j = false) →
    (run.toRun.boundary t = true → ∀ instr, (run.toRun.presented t).Selects instr ↔
      instr = .slotIllegal ∧
        ((run.clk t).1.front.illegalDelaySlot || (run.clk t).1.front.illegalInstr) = true) ∧
    (run.toRun.boundary t = false → ∃ f, m < f ∧ f < t ∧ (run.clk f).1.slot = true ∧
      run.toRun.boundary f = true ∧ run.toRun.presented t = run.toRun.presented f)

/-- At a boundary in the slot after a line with `maskint_next` no interrupt is
chosen. -/
def MaskKept : Prop :=
  ∀ m t, m < t → (run.clk m).1.slot = true → (run.line m).maskintNext = true →
    (∀ j, m < j → j < t → (run.clk j).1.slot = false) → run.toRun.boundary t = true →
    ¬(run.toRun.presented t).Selects .interrupt

/-- No event separates a branch from its delay slot, and no interrupt follows a
line that masks it, in any run from any state. -/
theorem delayed_branch_not_split : run.DelaySlotKept ∧ run.MaskKept := by
  constructor
  · intro m t hmt hissued hjump wait
    have hlast : (run.line m).dispatch = true := dispatch_of_delayJump _ hjump _
    obtain ⟨hdelay, hop⟩ := DecoderRun.waiting_of_delayJump hissued hjump hlast hmt wait
    refine ⟨fun hb instr => ?_, hop⟩
    rw [DecoderRun.presented_of_boundary hb]
    exact selects_nextOp_of_delaySlot hdelay instr
  · intro m t hmt hslot hmask wait hb
    rw [DecoderRun.presented_of_boundary hb]
    exact not_selects_interrupt (DecoderRun.maskint_of_maskintNext hslot hmask hmt wait)

end RomRun

end JCore
