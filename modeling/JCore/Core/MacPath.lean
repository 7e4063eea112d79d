import JCore.Decode.MacLines
import JCore.Lib.Buffer
import JCore.Mult.Unit

/-!
# The path to the multiplier

The decoder and the multiplier behind it. What a line wants of the multiplier is
an operation: operands to take in, a command, a write of `MACH` or `MACL`. It is
delivered one slot after the line was issued, or three slots after if the operand
comes from memory. The stall and the line counts keep the operations apart, so they
are delivered in the order of the lines, each to a multiplier that is free for it.

## Main definitions

* `MacPath.step`, `MacPath.run`: one clock of decoder and multiplier, and a run
* `MacOp`: what a line wants of the multiplier
* `MacPath.Apart`: how operations under way are spaced

## Main results

* `MacPath.Apart.step`: one clock keeps the spacing
* `MacPath.hazard_free`: every clock of every run
-/

namespace JCore

open DecodeTable

/-! ### How long the multiplier is at work -/

namespace Mult

/-- The clocks until a state has run down to `nop`. -/
def remaining : MultState → ℕ
  | .nop => 0
  | .dmulsl2 | .dmulul2 | .macl2 | .macw1 | .macws1 | .mull2 | .mulsw1 | .muluw1 => 1
  | .dmulsl1 | .dmulul1 | .macl1 | .macw | .macws | .mull1 | .mulsw | .muluw => 2
  | .dmulsl | .dmulul | .macl | .mull => 3

theorem remaining_code (s : MultState) : remaining (multCode s).state = remaining s - 1 := by
  cases s <;> rfl

/-- The multiplier takes a command again in its last clock. -/
theorem busy_code (s : MultState) : (multCode s).busy = decide (2 ≤ remaining s) := by
  cases s <;> rfl

theorem remaining_eq_zero {s : MultState} : remaining s = 0 ↔ s = .nop := by
  cases s <;> simp [remaining]

theorem remaining_le (s : MultState) : remaining s ≤ 3 := by
  cases s <;> decide

variable {this : MultReg} {slot : Bool} {a : MultI}

/-- Without a command the current operation goes on. -/
theorem remaining_step_of_no_command (h : slot = true → a.command = .nop) :
    remaining (step this slot a).state = remaining this.state - 1 := by
  change remaining (nextState this slot a) = _
  rw [nextState]
  split_ifs with hfree hmacw
  · exact absurd (h hfree.2) (by simp [hmacw.1])
  · have hbusy := hfree.1
    rw [code, busy_code, decide_eq_false_iff_not] at hbusy
    rw [h hfree.2, remaining]
    omega
  · exact remaining_code _

/-- After `MAC.W` at most two clocks are left. -/
theorem remaining_step_of_macw (h : slot = true → a.command = .nop ∨ a.command = .macw) :
    remaining (step this slot a).state ≤ 2 := by
  change remaining (nextState this slot a) ≤ 2
  have hle := remaining_le this.state
  rw [nextState]
  split_ifs with hfree hmacw
  · decide
  · rcases h hfree.2 with hcom | hcom <;> rw [hcom] <;> decide
  · rw [code, remaining_code]
    omega

end Mult

/-! ### Operations -/

/-- What a line wants of the multiplier in one slot, with the sources of the
operands that it takes in. -/
structure MacOp where
  com1 : Bool
  com2 : MultState
  wrmach : Bool
  wrmacl : Bool
  in1 : Option Macin1Sel
  in2 : Option Macin2Sel
  deriving DecidableEq, Repr

namespace MacOp

/-- An operation from its signals. -/
def ofSignals (com1 : Bool) (com2 : MultState) (wrmach wrmacl : Bool) (sel1 : Macin1Sel)
    (sel2 : Macin2Sel) : Option MacOp :=
  if com1 || com2 != .nop || wrmach || wrmacl then
    some
      { com1 := com1, com2 := com2, wrmach := wrmach, wrmacl := wrmacl
        in1 := if com1 || wrmach then some sel1 else none
        in2 := if com2 != .nop || wrmacl then some sel2 else none }
  else none

/-- The operation of the execute stage. -/
def ofEx (e : PipelineExStall) : Option MacOp :=
  ofSignals e.mulcom1 e.mulcom2 e.wrmach e.wrmacl e.macsel1 e.macsel2

/-- The operation of a write-back stage. -/
def ofWb (w : PipelineWbStall) : Option MacOp :=
  ofSignals w.mulcom1 w.mulcom2 w.wrmach w.wrmacl w.macsel1 w.macsel2

/-- The operation that the multiplier sees. -/
def ofMac (m : MacCtrl) : Option MacOp :=
  ofSignals m.com1 m.com2 m.wrmach m.wrmacl m.sel1 m.sel2

/-- The operation of a line, from whichever stage. -/
def ofLine (e : PipelineExStall) (w : PipelineWbStall) : Option MacOp := ofEx e <|> ofWb w

theorem ofSignals_eq_none {com1 wrmach wrmacl : Bool} {com2 : MultState} {sel1 : Macin1Sel}
    {sel2 : Macin2Sel} : ofSignals com1 com2 wrmach wrmacl sel1 sel2 = none ↔
      com1 = false ∧ com2 = .nop ∧ wrmach = false ∧ wrmacl = false := by
  rw [ofSignals]
  split_ifs with h
  · simp only [Bool.or_eq_true, bne_iff_ne] at h
    simp only [false_iff]
    rintro ⟨h1, h2, h3, h4⟩
    simp [h1, h2, h3, h4] at h
  · simp only [Bool.or_eq_true, bne_iff_ne, not_or, Bool.not_eq_true, not_not] at h
    simp [h.1.1.1, h.1.1.2, h.1.2, h.2]

theorem ofEx_eq_none {e : PipelineExStall} : ofEx e = none ↔
    e.mulcom1 = false ∧ e.mulcom2 = .nop ∧ e.wrmach = false ∧ e.wrmacl = false :=
  ofSignals_eq_none

theorem ofWb_eq_none {w : PipelineWbStall} : ofWb w = none ↔
    w.mulcom1 = false ∧ w.mulcom2 = .nop ∧ w.wrmach = false ∧ w.wrmacl = false :=
  ofSignals_eq_none

theorem ofEx_ne_none_iff {e : PipelineExStall} : ofEx e ≠ none ↔
    e.mulcom1 = true ∨ e.mulcom2 ≠ .nop ∨ e.wrmach = true ∨ e.wrmacl = true := by
  rw [Ne, ofEx_eq_none]
  simp only [not_and_or, Bool.not_eq_false]

theorem ofWb_ne_none_iff {w : PipelineWbStall} : ofWb w ≠ none ↔
    w.mulcom1 = true ∨ w.mulcom2 ≠ .nop ∨ w.wrmach = true ∨ w.wrmacl = true := by
  rw [Ne, ofWb_eq_none]
  simp only [not_and_or, Bool.not_eq_false]

variable {p : Pipeline}

/-- With nothing in the execute stage the multiplier sees the last write-back stage. -/
theorem ofMac_of_ex_none (h : ofEx p.ex1Stall = none) (sLatch : Bool) :
    ofMac (p.mac sLatch) = ofWb p.wb3Stall := by
  obtain ⟨h1, h2, h3, h4⟩ := ofEx_eq_none.mp h
  simp [ofMac, ofWb, Pipeline.mac, h1, h2, h3, h4]

/-- With nothing in the last write-back stage it sees the execute stage. -/
theorem ofMac_of_wb_none (h : ofWb p.wb3Stall = none) (sLatch : Bool) :
    ofMac (p.mac sLatch) = ofEx p.ex1Stall := by
  obtain ⟨h1, h2, h3, h4⟩ := ofWb_eq_none.mp h
  simp only [ofMac, ofEx, ofSignals, Pipeline.mac, h1, h2, h3, h4, Bool.or_false]
  by_cases hcom : p.ex1Stall.mulcom2 = .nop
  · by_cases hl : p.ex1Stall.wrmacl <;> by_cases hc : p.ex1Stall.mulcom1 <;>
      by_cases hm : p.ex1Stall.wrmach <;> simp [hcom, hl, hc, hm]
  · by_cases hc : p.ex1Stall.mulcom1 <;> by_cases hm : p.ex1Stall.wrmach <;>
      simp [hcom, hc, hm]

end MacOp

/-! ### The path -/

/-- The decoder and the multiplier. -/
@[ext] structure MacPath where
  dec : DecoderReg
  mult : MultReg
  deriving DecidableEq, Repr

/-- The inputs of a clock, with the values at the operands of the multiplier. -/
structure MacPathI where
  slot : Bool
  front : DispatchI
  ifStall : Bool
  maskInt : Bool
  tBcc : Bool
  s : Bool
  in1 : BitVec 32
  in2 : BitVec 32
  deriving DecidableEq, Repr

namespace MacPath

section Step

variable (this : MacPath) (i : MacPathI)

/-- The decoder hears from the multiplier whether it is busy. -/
def decI : DecoderI :=
  { slot := i.slot, front := i.front, ifStall := i.ifStall, macBusy := (Mult.code this.mult).busy,
    maskInt := i.maskInt }

def line : TableLine := Decoder.romLine this.dec (decI this i) i.tBcc

def stalled : Bool := Decoder.romStall this.dec (decI this i) i.tBcc

/-- The address of the line presented. -/
def addr : BitVec 8 := (Decoder.romOp this.dec (decI this i)).addr

def mac : MacCtrl := this.dec.pipeline.mac (line this i).macSLatch

def multI : MultI :=
  { wrM1 := (mac this i).com1, command := (mac this i).com2, s := i.s,
    wrMach := (mac this i).wrmach, wrMacl := (mac this i).wrmacl, in1 := i.in1, in2 := i.in2 }

/-- One clock. -/
def step : MacPath :=
  { dec := Decoder.romStep this.dec (decI this i) i.tBcc
    mult := Mult.step this.mult i.slot (multI this i) }

/-- The line in the execute stage reads `MACH` or `MACL`. -/
def reading : Bool :=
  this.dec.pipeline.ex1Stall.wrregZ &&
    (this.dec.pipeline.ex1.ybusSel == .selMach || this.dec.pipeline.ex1.ybusSel == .selMacl)

end Step

def reset : MacPath := { dec := decoderReset, mult := multReset }

variable {this : MacPath} {i : MacPathI}

/-! ### What one clock does to the decoder -/

theorem dec_step_of_not_slot (h : i.slot = false) : (step this i).dec = this.dec :=
  Decoder.romStep_of_not_slot h

/-- The later write-back stages move on. -/
theorem wb_step (h : i.slot = true) :
    (step this i).dec.pipeline.wb2 = this.dec.pipeline.wb1 ∧
      (step this i).dec.pipeline.wb3 = this.dec.pipeline.wb2 ∧
      (step this i).dec.pipeline.wb2Stall = this.dec.pipeline.wb1Stall ∧
      (step this i).dec.pipeline.wb3Stall = this.dec.pipeline.wb2Stall := by
  have hp : (step this i).dec.pipeline = _ := Decoder.pipeline_romStep h
  rw [hp]
  exact ⟨rfl, rfl, rfl, rfl⟩

/-- The line presented enters the first stages, as a bubble if it is stalled. -/
theorem line_step (h : i.slot = true) :
    (step this i).dec.pipeline.ex1 = (line this i).ex ∧
      (step this i).dec.pipeline.wb1 = (line this i).wb ∧
      (step this i).dec.pipeline.ex1Stall =
        (if stalled this i then stageExStallReset else (line this i).exStall) ∧
      (step this i).dec.pipeline.wb1Stall =
        (if stalled this i then stageWbStallReset else (line this i).wbStall) := by
  have hp : (step this i).dec.pipeline = _ := Decoder.pipeline_romStep h
  rw [hp]
  exact ⟨rfl, rfl, rfl, rfl⟩

theorem addr_step (h : i.slot = true) : (step this i).dec.core.op.addr =
    if stalled this i then addr this i else addr this i + 1 := by
  have hc : (step this i).dec.core = _ := Decoder.core_romStep h
  rw [hc]
  change (if stalled this i = true then _ else _ : Operation).addr = _
  split_ifs <;> rfl

theorem boundary_step (h : i.slot = true) : Decoder.boundary (step this i).dec =
    (!stalled this i && (line this i).dispatch) := Decoder.boundary_romStep h

/-- What a line that waits for the multiplier has found when it is issued. -/
theorem free_of_sense (sense : macStallSense (microcodeLine (addr this i)) = true)
    (issued : stalled this i = false) :
    this.dec.pipeline.wb1.macBusy = false ∧ this.dec.pipeline.wb2.macBusy = false ∧
      this.dec.pipeline.wb3.macBusy = false ∧ this.dec.pipeline.ex1.macBusy = false ∧
      (Mult.code this.mult).busy = false := by
  have hs : (line this i).macStallSense = true := sense
  have hstall : DecodeCore.macStall (Decoder.coreI this.dec (decI this i) (line this i)) = false := by
    have hall : DecodeCore.nextIdStall (Decoder.coreI this.dec (decI this i) (line this i)) = false :=
      issued
    rw [DecodeCore.nextIdStall, Bool.or_eq_false_iff] at hall
    exact hall.2
  rw [DecodeCore.macStall, Bool.and_eq_false_iff] at hstall
  have hbusy := hstall.resolve_left (by rw [Decoder.coreI, hs]; decide)
  simp only [Decoder.coreI, decI, Bool.or_eq_false_iff] at hbusy
  obtain ⟨⟨⟨⟨h1, h2⟩, h3⟩, hex⟩, hm⟩ := hbusy
  exact ⟨h1, h2, h3, hex, hm⟩

/-! ### Operations under way -/

/-- The stage sends a command or writes `MACH` or `MACL`. -/
def Commits (w : PipelineWbStall) : Prop :=
  w.mulcom2 ≠ .nop ∨ w.wrmach = true ∨ w.wrmacl = true

/-- The decoder is about to present the command of a multiply-accumulate. -/
def AtCommand (dec : DecoderReg) : Prop :=
  Decoder.boundary dec = false ∧ commandAddr dec.core.op.addr = true

theorem addr_of_not_boundary (h : Decoder.boundary this.dec = false) :
    addr this i = this.dec.core.op.addr := by
  rw [addr, Decoder.romOp_of_not_boundary h]

theorem addr_of_atCommand (h : AtCommand this.dec) :
    addr this i = this.dec.core.op.addr ∧ commandAddr (addr this i) = true := by
  have ha := addr_of_not_boundary (i := i) h.1
  exact ⟨ha, ha ▸ h.2⟩

/-- The command is presented only within its operation. -/
theorem atCommand_of_addr (h : commandAddr (addr this i) = true) : AtCommand this.dec := by
  rcases hb : Decoder.boundary this.dec with _ | _
  · exact ⟨hb, addr_of_not_boundary (i := i) hb ▸ h⟩
  · rw [addr, Decoder.romOp_of_boundary hb, nextOp_not_commandAddr] at h
    exact absurd h Bool.false_ne_true

/-- How the operations under way are spaced. -/
structure Apart (this : MacPath) : Prop where
  /-- what will change the multiplier's results counts as busy -/
  exBusy : this.dec.pipeline.ex1Stall.mulcom2 ≠ .nop → this.dec.pipeline.ex1.macBusy = true
  busy1 : Commits this.dec.pipeline.wb1Stall → this.dec.pipeline.wb1.macBusy = true
  busy2 : Commits this.dec.pipeline.wb2Stall → this.dec.pipeline.wb2.macBusy = true
  busy3 : Commits this.dec.pipeline.wb3Stall → this.dec.pipeline.wb3.macBusy = true
  /-- a first load is followed by the command -/
  load1 : this.dec.pipeline.wb1Stall.mulcom1 = true → AtCommand this.dec
  load2 : this.dec.pipeline.wb2Stall.mulcom1 = true → this.dec.pipeline.wb1.macBusy = true
  /-- a use in the execute stage is alone, and the multiplier is at rest -/
  ex : MacOp.ofEx this.dec.pipeline.ex1Stall ≠ none ∨ reading this = true →
    MacOp.ofWb this.dec.pipeline.wb1Stall = none ∧ MacOp.ofWb this.dec.pipeline.wb2Stall = none ∧
      MacOp.ofWb this.dec.pipeline.wb3Stall = none ∧ this.mult.state = .nop
  /-- a line that reads the results does nothing else with the multiplier -/
  read : reading this = true → MacOp.ofEx this.dec.pipeline.ex1Stall = none
  /-- nothing is ahead of a write from memory, and the multiplier is at rest -/
  write1 : this.dec.pipeline.wb1Stall.wrmach = true ∨ this.dec.pipeline.wb1Stall.wrmacl = true →
    MacOp.ofWb this.dec.pipeline.wb2Stall = none ∧ MacOp.ofWb this.dec.pipeline.wb3Stall = none ∧
      this.mult.state = .nop
  write2 : this.dec.pipeline.wb2Stall.wrmach = true ∨ this.dec.pipeline.wb2Stall.wrmacl = true →
    MacOp.ofWb this.dec.pipeline.wb3Stall = none ∧ this.mult.state = .nop
  write3 : this.dec.pipeline.wb3Stall.wrmach = true ∨ this.dec.pipeline.wb3Stall.wrmacl = true →
    this.mult.state = .nop
  /-- before a command there is room for it -/
  atCommand : AtCommand this.dec → this.dec.pipeline.wb1Stall.mulcom2 = .nop ∧
    (this.dec.pipeline.wb2Stall.mulcom2 = .nop ∨ this.dec.pipeline.wb2Stall.mulcom2 = .macw)
  command1 : this.dec.pipeline.wb1Stall.mulcom2 ≠ .nop →
    this.dec.pipeline.wb2Stall.mulcom2 = .nop ∧
      (this.dec.pipeline.wb3Stall.mulcom2 = .nop ∨ this.dec.pipeline.wb3Stall.mulcom2 = .macw)
  command2 : this.dec.pipeline.wb2Stall.mulcom2 ≠ .nop →
    this.dec.pipeline.wb3Stall.mulcom2 = .nop ∧ Mult.remaining this.mult.state ≤ 2
  command3 : this.dec.pipeline.wb3Stall.mulcom2 ≠ .nop → Mult.remaining this.mult.state ≤ 1
  /-- the command of `MAC.L` is followed by another line -/
  follow : this.dec.pipeline.wb1Stall.mulcom2 ≠ .nop →
    this.dec.pipeline.wb1Stall.mulcom2 = .macw ∨
      Decoder.boundary this.dec = false ∧ this.dec.core.op.addr = 136

theorem command_multI : (multI this i).command =
    if this.dec.pipeline.ex1Stall.mulcom2 ≠ .nop then this.dec.pipeline.ex1Stall.mulcom2
    else this.dec.pipeline.wb3Stall.mulcom2 := rfl

/-- Without a command in either stage the multiplier runs on. -/
theorem remaining_step (hex : this.dec.pipeline.ex1Stall.mulcom2 = .nop)
    (hwb : this.dec.pipeline.wb3Stall.mulcom2 = .nop) :
    Mult.remaining (step this i).mult.state = Mult.remaining this.mult.state - 1 := by
  refine Mult.remaining_step_of_no_command fun _ => ?_
  rw [command_multI, if_neg (not_not.mpr hex), hwb]

/-- It stays at rest then. -/
theorem state_step_of_nop (hex : this.dec.pipeline.ex1Stall.mulcom2 = .nop)
    (hwb : this.dec.pipeline.wb3Stall.mulcom2 = .nop) (rest : this.mult.state = .nop) :
    (step this i).mult.state = .nop := by
  rw [← Mult.remaining_eq_zero, remaining_step hex hwb, rest]
  rfl

namespace Apart

variable (h : Apart this)

include h

/-- What waits in a write-back stage leaves the execute stage free. -/
theorem ex_none_of_wb (hwb : MacOp.ofWb this.dec.pipeline.wb1Stall ≠ none ∨
    MacOp.ofWb this.dec.pipeline.wb2Stall ≠ none ∨ MacOp.ofWb this.dec.pipeline.wb3Stall ≠ none) :
    MacOp.ofEx this.dec.pipeline.ex1Stall = none := by
  by_contra hex
  obtain ⟨h1, h2, h3, -⟩ := h.ex (.inl hex)
  rcases hwb with hwb | hwb | hwb
  · exact hwb h1
  · exact hwb h2
  · exact hwb h3

theorem mulcom2_of_wb (hwb : MacOp.ofWb this.dec.pipeline.wb1Stall ≠ none ∨
    MacOp.ofWb this.dec.pipeline.wb2Stall ≠ none ∨ MacOp.ofWb this.dec.pipeline.wb3Stall ≠ none) :
    this.dec.pipeline.ex1Stall.mulcom2 = .nop :=
  (MacOp.ofEx_eq_none.mp (h.ex_none_of_wb hwb)).2.1

/-! ### What one clock does to the multiplier -/

theorem remaining_of_command1 (hcom : this.dec.pipeline.wb1Stall.mulcom2 ≠ .nop) :
    Mult.remaining (MacPath.step this i).mult.state ≤ 2 := by
  have hex := h.mulcom2_of_wb (.inl (MacOp.ofWb_ne_none_iff.mpr (.inr (.inl hcom))))
  refine Mult.remaining_step_of_macw fun _ => ?_
  rw [command_multI, if_neg (not_not.mpr hex)]
  exact (h.command1 hcom).2

theorem remaining_of_command2 (hcom : this.dec.pipeline.wb2Stall.mulcom2 ≠ .nop) :
    Mult.remaining (MacPath.step this i).mult.state ≤ 1 := by
  obtain ⟨hwb, hle⟩ := h.command2 hcom
  have hex := h.mulcom2_of_wb (.inr (.inl (MacOp.ofWb_ne_none_iff.mpr (.inr (.inl hcom)))))
  rw [remaining_step hex hwb]
  omega

theorem rest_of_write1
    (hwr : this.dec.pipeline.wb1Stall.wrmach = true ∨ this.dec.pipeline.wb1Stall.wrmacl = true) :
    (MacPath.step this i).mult.state = .nop := by
  obtain ⟨-, h3, hrest⟩ := h.write1 hwr
  have hex := h.mulcom2_of_wb (.inl (MacOp.ofWb_ne_none_iff.mpr (.inr (.inr hwr))))
  exact state_step_of_nop hex (MacOp.ofWb_eq_none.mp h3).2.1 hrest

theorem rest_of_write2
    (hwr : this.dec.pipeline.wb2Stall.wrmach = true ∨ this.dec.pipeline.wb2Stall.wrmacl = true) :
    (MacPath.step this i).mult.state = .nop := by
  obtain ⟨h3, hrest⟩ := h.write2 hwr
  have hex := h.mulcom2_of_wb (.inr (.inl (MacOp.ofWb_ne_none_iff.mpr (.inr (.inr hwr)))))
  exact state_step_of_nop hex (MacOp.ofWb_eq_none.mp h3).2.1 hrest

/-- A line that waits for the multiplier is issued only when nothing but itself is
left to come. -/
theorem alone_of_sense (sense : macStallSense (microcodeLine (addr this i)) = true)
    (issued : stalled this i = false) :
    MacOp.ofWb this.dec.pipeline.wb1Stall = none ∧ MacOp.ofWb this.dec.pipeline.wb2Stall = none ∧
      (MacPath.step this i).mult.state = .nop := by
  obtain ⟨f1, f2, f3, fex, fm⟩ := free_of_sense sense issued
  refine ⟨?_, ?_, ?_⟩
  · by_contra hwb
    rcases MacOp.ofWb_ne_none_iff.mp hwb with hload | hcommit
    · -- the command that follows a first load does not wait
      rw [((macLine _).command (addr_of_atCommand (h.load1 hload)).2).1] at sense
      exact Bool.false_ne_true sense
    · rw [h.busy1 hcommit] at f1
      exact Bool.false_ne_true f1.symm
  · by_contra hwb
    rcases MacOp.ofWb_ne_none_iff.mp hwb with hload | hcommit
    · rw [h.load2 hload] at f1
      exact Bool.false_ne_true f1.symm
    · rw [h.busy2 hcommit] at f2
      exact Bool.false_ne_true f2.symm
  · have hex : this.dec.pipeline.ex1Stall.mulcom2 = .nop := by
      by_contra hex
      rw [h.exBusy hex] at fex
      exact Bool.false_ne_true fex.symm
    have hwb : this.dec.pipeline.wb3Stall.mulcom2 = .nop := by
      by_contra hwb
      rw [h.busy3 (.inl hwb)] at f3
      exact Bool.false_ne_true f3.symm
    rw [Mult.code, Mult.busy_code, decide_eq_false_iff_not] at fm
    rw [← Mult.remaining_eq_zero, remaining_step hex hwb]
    omega

end Apart

/-! ### Every clock keeps the spacing -/

/-- A clock without a slot only lets the multiplier run on. -/
theorem Apart.step_of_not_slot (h : Apart this) (slot : i.slot = false) : Apart (step this i) := by
  -- the lines stay where they are, and the unit goes on by itself
  have hd : (step this i).dec = this.dec := dec_step_of_not_slot slot
  have hrun : Mult.remaining (step this i).mult.state = Mult.remaining this.mult.state - 1 :=
    Mult.remaining_step_of_no_command fun hs => absurd hs (by rw [slot]; decide)
  have hrest : this.mult.state = .nop → (step this i).mult.state = .nop := by
    intro hnop
    rw [← Mult.remaining_eq_zero, hrun, hnop]
    rfl
  have hread : reading (step this i) = reading this := by rw [reading, hd, reading]
  constructor
  · rw [hd]
    exact h.exBusy
  · rw [hd]
    exact h.busy1
  · rw [hd]
    exact h.busy2
  · rw [hd]
    exact h.busy3
  · rw [hd]
    exact h.load1
  · rw [hd]
    exact h.load2
  · rw [hd, hread]
    intro huse
    obtain ⟨h1, h2, h3, hnop⟩ := h.ex huse
    exact ⟨h1, h2, h3, hrest hnop⟩
  · rw [hd, hread]
    exact h.read
  · rw [hd]
    intro hwr
    obtain ⟨h2, h3, hnop⟩ := h.write1 hwr
    exact ⟨h2, h3, hrest hnop⟩
  · rw [hd]
    intro hwr
    obtain ⟨h3, hnop⟩ := h.write2 hwr
    exact ⟨h3, hrest hnop⟩
  · rw [hd]
    exact fun hwr => hrest (h.write3 hwr)
  · rw [hd]
    exact h.atCommand
  · rw [hd]
    exact h.command1
  · rw [hd, hrun]
    intro hcom
    obtain ⟨h3, hle⟩ := h.command2 hcom
    exact ⟨h3, (Nat.sub_le _ 1).trans hle⟩
  · rw [hd, hrun]
    exact fun hcom => (Nat.sub_le _ 1).trans (h.command3 hcom)
  · rw [hd]
    exact h.follow

section Slot

variable (slot : i.slot = true)

include slot

/-- What enters the first stages comes from the line presented, once it is issued. -/
theorem exUse_of_step (huse : MacOp.ofEx (step this i).dec.pipeline.ex1Stall ≠ none) :
    stalled this i = false ∧ exUse (microcodeLine (addr this i)) = true := by
  rw [(line_step slot).2.2.1] at huse
  by_cases hs : stalled this i = true
  · rw [if_pos hs] at huse
    exact absurd rfl huse
  · rw [if_neg hs, MacOp.ofEx_ne_none_iff] at huse
    change exMulcom1 (microcodeLine (addr this i)) = true ∨
      exMulcom2 (microcodeLine (addr this i)) ≠ .nop ∨
      exWrmach (microcodeLine (addr this i)) = true ∨
      exWrmacl (microcodeLine (addr this i)) = true at huse
    exact ⟨Bool.eq_false_iff.mpr hs, by simpa [exUse, or_assoc] using huse⟩

theorem macRead_of_step (hread : reading (step this i) = true) :
    stalled this i = false ∧ macRead (microcodeLine (addr this i)) = true := by
  rw [reading, (line_step slot).1, (line_step slot).2.2.1] at hread
  by_cases hs : stalled this i = true
  · rw [if_pos hs] at hread
    exact absurd hread Bool.false_ne_true
  · rw [if_neg hs] at hread
    exact ⟨Bool.eq_false_iff.mpr hs, hread⟩

theorem mulcom1_of_step (hload : (step this i).dec.pipeline.wb1Stall.mulcom1 = true) :
    stalled this i = false ∧ wbMulcom1 (microcodeLine (addr this i)) = true := by
  rw [(line_step slot).2.2.2] at hload
  by_cases hs : stalled this i = true
  · rw [if_pos hs] at hload
    exact absurd hload Bool.false_ne_true
  · rw [if_neg hs] at hload
    exact ⟨Bool.eq_false_iff.mpr hs, hload⟩

theorem mulcom2_of_step (hcom : (step this i).dec.pipeline.wb1Stall.mulcom2 ≠ .nop) :
    stalled this i = false ∧ wbMulcom2 (microcodeLine (addr this i)) ≠ .nop ∧
      (step this i).dec.pipeline.wb1Stall.mulcom2 = wbMulcom2 (microcodeLine (addr this i)) := by
  rw [(line_step slot).2.2.2] at hcom ⊢
  by_cases hs : stalled this i = true
  · rw [if_pos hs] at hcom
    exact absurd rfl hcom
  · rw [if_neg hs] at hcom ⊢
    exact ⟨Bool.eq_false_iff.mpr hs, hcom, rfl⟩

theorem wbWrite_of_step (hwr : (step this i).dec.pipeline.wb1Stall.wrmach = true ∨
    (step this i).dec.pipeline.wb1Stall.wrmacl = true) :
    stalled this i = false ∧ wbWrite (microcodeLine (addr this i)) = true := by
  rw [(line_step slot).2.2.2] at hwr
  by_cases hs : stalled this i = true
  · rw [if_pos hs] at hwr
    exact absurd hwr (by decide)
  · rw [if_neg hs] at hwr
    exact ⟨Bool.eq_false_iff.mpr hs, Bool.or_eq_true_iff.mpr hwr⟩

/-- The line presented has nothing for the write-back stages. -/
theorem wb1_none_of_line (hnone : wbUse (microcodeLine (addr this i)) = false) :
    MacOp.ofWb (step this i).dec.pipeline.wb1Stall = none := by
  by_contra hwb
  rcases MacOp.ofWb_ne_none_iff.mp hwb with hload | hcom | hwr
  · have huse := (mulcom1_of_step slot hload).2
    simp [wbUse, huse] at hnone
  · have huse := (mulcom2_of_step slot hcom).2.1
    simp [wbUse, huse] at hnone
  · have huse := (wbWrite_of_step slot hwr).2
    simp [wbUse, huse] at hnone

/-- The signal that counts the presented line as busy in the execute stage. -/
theorem exBusy_step : (step this i).dec.pipeline.ex1.macBusy =
    exMacBusy (microcodeLine (addr this i)) (stalled this i) := by
  rw [(line_step slot).1]
  rfl

theorem wbBusy_step : (step this i).dec.pipeline.wb1.macBusy =
    wbMacBusy (microcodeLine (addr this i)) (stalled this i) := by
  rw [(line_step slot).2.1]
  rfl

/-- The command counts as busy, whether it is issued or stalled. -/
theorem wbBusy_of_command (h : commandAddr (addr this i) = true) :
    (step this i).dec.pipeline.wb1.macBusy = true := by
  rw [wbBusy_step slot, wbMacBusy, ((macLine _).command h).2]

theorem exBusy_of_step (hcom : (step this i).dec.pipeline.ex1Stall.mulcom2 ≠ .nop) :
    (step this i).dec.pipeline.ex1.macBusy = true := by
  obtain ⟨issued, -⟩ := exUse_of_step slot (MacOp.ofEx_ne_none_iff.mpr (.inr (.inl hcom)))
  rw [(line_step slot).2.2.1, issued] at hcom
  have hline : exMulcom2 (microcodeLine (addr this i)) ≠ .nop := hcom
  rw [exBusy_step slot, exMacBusy, (macLine _).exBusy hline, issued]
  rfl

theorem busy1_of_step (hcommit : Commits (step this i).dec.pipeline.wb1Stall) :
    (step this i).dec.pipeline.wb1.macBusy = true := by
  rcases hcommit with hcom | hwr
  · exact wbBusy_of_command slot ((macLine _).only (mulcom2_of_step slot hcom).2.1).1
  · obtain ⟨issued, hwrite⟩ := wbWrite_of_step slot hwr
    rw [wbBusy_step slot, wbMacBusy, (macLine _).writeBusy hwrite, issued]
    rfl

/-- After the first load the decoder is at the command. -/
theorem atCommand_of_load (hload : (step this i).dec.pipeline.wb1Stall.mulcom1 = true) :
    AtCommand (step this i).dec := by
  obtain ⟨issued, hline⟩ := mulcom1_of_step slot hload
  obtain ⟨hnext, hopen⟩ := (macLine _).load hline
  refine ⟨?_, ?_⟩
  · rw [boundary_step slot, Bool.and_eq_false_iff]
    exact .inr (hopen i.tBcc)
  · rw [addr_step slot, issued]
    exact hnext

/-- Where the decoder is at a command, either it was before or it issued a line
without one. -/
theorem room_of_atCommand (h : Apart this) (hat : AtCommand (step this i).dec) :
    (step this i).dec.pipeline.wb1Stall.mulcom2 = .nop ∧
      (this.dec.pipeline.wb1Stall.mulcom2 = .nop ∨ this.dec.pipeline.wb1Stall.mulcom2 = .macw) := by
  have haddr := hat.2
  rw [addr_step slot] at haddr
  rcases hs : stalled this i with _ | _
  · -- the line before the command has none, and is not the one after the command of `MAC.L`
    rw [hs, if_neg Bool.false_ne_true] at haddr
    obtain ⟨hnone, hne⟩ := (macLine _).first haddr
    refine ⟨?_, ?_⟩
    · by_contra hcom
      exact (mulcom2_of_step slot hcom).2.1 hnone
    · by_contra hcom
      rw [not_or] at hcom
      rcases h.follow hcom.1 with hmacw | ⟨hb, h136⟩
      · exact hcom.2 hmacw
      · exact hne ((addr_of_not_boundary hb).trans h136)
  · rw [hs, if_pos rfl] at haddr
    refine ⟨?_, .inl (h.atCommand (atCommand_of_addr haddr)).1⟩
    by_contra hcom
    rw [(mulcom2_of_step slot hcom).1] at hs
    exact Bool.false_ne_true hs

theorem follow_of_step (hcom : (step this i).dec.pipeline.wb1Stall.mulcom2 ≠ .nop) :
    (step this i).dec.pipeline.wb1Stall.mulcom2 = .macw ∨
      Decoder.boundary (step this i).dec = false ∧ (step this i).dec.core.op.addr = 136 := by
  obtain ⟨issued, hline, heq⟩ := mulcom2_of_step slot hcom
  rcases ((macLine _).only hline).2 with hmacw | ⟨hnext, hopen⟩
  · exact .inl (heq.trans hmacw)
  · refine .inr ⟨?_, ?_⟩
    · rw [boundary_step slot, Bool.and_eq_false_iff]
      exact .inr (hopen i.tBcc)
    · rw [addr_step slot, issued]
      exact hnext

/-- A slot moves every operation on by one stage. -/
theorem Apart.step_of_slot (h : Apart this) : Apart (step this i) := by
  obtain ⟨hwb2, hwb3, hwb2s, hwb3s⟩ := @wb_step this i slot
  constructor
  · exact exBusy_of_step slot
  · exact busy1_of_step slot
  -- the lines move on by one stage
  · rw [hwb2, hwb2s]
    exact h.busy1
  · rw [hwb3, hwb3s]
    exact h.busy2
  · exact atCommand_of_load slot
  · rw [hwb2s]
    exact fun hload => wbBusy_of_command slot (addr_of_atCommand (h.load1 hload)).2
  · rw [hwb2s, hwb3s]
    intro huse
    -- a line that uses the unit is sensed, so it is not issued behind another use
    have hline : stalled this i = false ∧ (exUse (microcodeLine (addr this i)) = true ∨
        macRead (microcodeLine (addr this i)) = true) := by
      rcases huse with huse | hread
      · exact ⟨(exUse_of_step slot huse).1, .inl (exUse_of_step slot huse).2⟩
      · exact ⟨(macRead_of_step slot hread).1, .inr (macRead_of_step slot hread).2⟩
    have sense := (macLine (addr this i)).sense (hline.2.imp_right .inl)
    obtain ⟨h1, h2, hrest⟩ := h.alone_of_sense sense hline.1
    exact ⟨wb1_none_of_line slot ((macLine _).one hline.2), h1, h2, hrest⟩
  · intro hread
    by_contra huse
    have hline := (exUse_of_step slot huse).2
    rw [(macLine _).read (macRead_of_step slot hread).2] at hline
    exact Bool.false_ne_true hline
  · rw [hwb2s, hwb3s]
    intro hwr
    obtain ⟨issued, hwrite⟩ := wbWrite_of_step slot hwr
    exact h.alone_of_sense ((macLine _).sense (.inr (.inr hwrite))) issued
  · rw [hwb2s, hwb3s]
    exact fun hwr => ⟨(h.write1 hwr).1, h.rest_of_write1 hwr⟩
  · rw [hwb3s]
    exact fun hwr => h.rest_of_write2 hwr
  · rw [hwb2s]
    exact room_of_atCommand slot h
  · rw [hwb2s, hwb3s]
    intro hcom
    exact h.atCommand (atCommand_of_addr ((macLine _).only (mulcom2_of_step slot hcom).2.1).1)
  · rw [hwb2s, hwb3s]
    exact fun hcom => ⟨(h.command1 hcom).1, h.remaining_of_command1 hcom⟩
  · rw [hwb3s]
    exact fun hcom => h.remaining_of_command2 hcom
  · exact follow_of_step slot

end Slot

theorem Apart.step (h : Apart this) (i : MacPathI) : Apart (step this i) := by
  rcases hs : i.slot with _ | _
  · exact h.step_of_not_slot hs
  · exact h.step_of_slot hs

theorem Apart.reset : Apart reset := by
  constructor <;> simp [MacPath.reset, decoderReset, pipelineReset, stageWbStallReset,
    stageExStallReset, stageExReset, stageWbReset, multReset, Commits, AtCommand, reading, MacOp.ofEx, MacOp.ofWb,
    MacOp.ofSignals, Mult.remaining]

/-! ### Runs -/

section Run

variable (clk : ℕ → MacPathI)

/-- The states from reset on. -/
def run : ℕ → MacPath := trace step reset clk

theorem apart_run (t : ℕ) : Apart (run clk t) :=
  trace_invariant Apart.reset (fun t _ h => h.step (clk t)) t

/-- The operation that the multiplier takes in clock `t`. -/
def delivered (t : ℕ) : Option MacOp :=
  if (clk t).slot then MacOp.ofMac (mac (run clk t) (clk t)) else none

/-- The operation of the line issued in clock `t`. -/
def issued (t : ℕ) : Option MacOp :=
  if (clk t).slot && !stalled (run clk t) (clk t) then
    MacOp.ofLine (line (run clk t) (clk t)).exStall (line (run clk t) (clk t)).wbStall
  else none

/-- The operations under way, the oldest first. -/
def pending (p : Pipeline) : List MacOp :=
  (MacOp.ofWb p.wb3Stall).toList ++ (MacOp.ofWb p.wb2Stall).toList ++
    (MacOp.ofLine p.ex1Stall p.wb1Stall).toList

variable {clk}

/-- At most one of the two stages has an operation for the multiplier. -/
theorem delivered_of_slot {t : ℕ} (slot : (clk t).slot = true) : delivered clk t =
    (MacOp.ofEx (run clk t).dec.pipeline.ex1Stall <|>
      MacOp.ofWb (run clk t).dec.pipeline.wb3Stall) := by
  rw [delivered, if_pos slot]
  rcases hex : MacOp.ofEx (run clk t).dec.pipeline.ex1Stall with _ | op
  · exact MacOp.ofMac_of_ex_none hex _
  · have hne : MacOp.ofEx (run clk t).dec.pipeline.ex1Stall ≠ none := by simp [hex]
    obtain ⟨-, -, h3, -⟩ := (apart_run clk t).ex (.inl hne)
    rw [mac, MacOp.ofMac_of_wb_none h3, hex]
    rfl

theorem ofLine_step {t : ℕ} (slot : (clk t).slot = true) :
    MacOp.ofLine (run clk (t + 1)).dec.pipeline.ex1Stall
      (run clk (t + 1)).dec.pipeline.wb1Stall = issued clk t := by
  obtain ⟨-, -, hex, hwb⟩ := @line_step (run clk t) (clk t) slot
  rw [run, trace_succ, ← run, hex, hwb, issued, slot]
  cases stalled (run clk t) (clk t) <;> rfl

/-- What is under way leaves in order. -/
theorem pending_step (t : ℕ) : pending (run clk t).dec.pipeline ++ (issued clk t).toList =
    (delivered clk t).toList ++ pending (run clk (t + 1)).dec.pipeline := by
  rcases hs : (clk t).slot with _ | _
  · have hd : (run clk (t + 1)).dec = (run clk t).dec := dec_step_of_not_slot hs
    rw [hd, issued, delivered, hs]
    simp
  · obtain ⟨-, -, hwb2, hwb3⟩ := @wb_step (run clk t) (clk t) hs
    rw [pending, pending, ofLine_step hs, delivered_of_slot hs]
    change _ = _ ++ ((MacOp.ofWb (step (run clk t) (clk t)).dec.pipeline.wb3Stall).toList ++
      (MacOp.ofWb (step (run clk t) (clk t)).dec.pipeline.wb2Stall).toList ++ _)
    rw [hwb2, hwb3, MacOp.ofLine]
    rcases hex : MacOp.ofEx (run clk t).dec.pipeline.ex1Stall with _ | op
    · simp
    · have hne : MacOp.ofEx (run clk t).dec.pipeline.ex1Stall ≠ none := by simp [hex]
      obtain ⟨h1, h2, h3, -⟩ := (apart_run clk t).ex (.inl hne)
      simp [h1, h2, h3]

/-- Operations are delivered in the order in which their lines were issued. -/
theorem history_issued (t : ℕ) :
    history (issued clk) t = history (delivered clk) t ++ pending (run clk t).dec.pipeline := by
  induction t with
  | zero => rfl
  | succ t ih =>
    rw [history_succ, history_succ, ih, List.append_assoc, pending_step, List.append_assoc]

end Run

/-- What holds in clock `t` of a run. -/
structure HazardFree (clk : ℕ → MacPathI) (t : ℕ) : Prop where
  /-- a command finds the multiplier free and is begun -/
  accepted : (clk t).slot = true → (multI (run clk t) (clk t)).command ≠ .nop →
    (Mult.code (run clk t).mult).busy = false ∧
      (run clk (t + 1)).mult.state =
        if (multI (run clk t) (clk t)).command = .macw ∧ (clk t).s then .macws
        else (multI (run clk t) (clk t)).command
  /-- a write of `MACH` or `MACL` finds it at rest, every accumulation being over -/
  settled : (multI (run clk t) (clk t)).wrMach = true ∨ (multI (run clk t) (clk t)).wrMacl = true →
    (run clk t).mult.state = .nop
  /-- so does a read, and all that was issued before it has been delivered -/
  read : reading (run clk t) = true → (run clk t).mult.state = .nop ∧
    history (delivered clk) t = history (issued clk) t
  /-- the two stages do not use the multiplier at the same time -/
  apart : MacOp.ofEx (run clk t).dec.pipeline.ex1Stall = none ∨
    MacOp.ofWb (run clk t).dec.pipeline.wb3Stall = none
  /-- what is issued is delivered in order or still under way -/
  order : history (issued clk) t =
    history (delivered clk) t ++ pending (run clk t).dec.pipeline

/-- The multiplier is used without hazards, whatever the instructions, the slots
and the other stalls are. -/
theorem hazard_free (clk : ℕ → MacPathI) (t : ℕ) : HazardFree clk t := by
  have h := apart_run clk t
  -- a use of the execute stage leaves no other line in the pipeline
  have apart : MacOp.ofEx (run clk t).dec.pipeline.ex1Stall = none ∨
      MacOp.ofWb (run clk t).dec.pipeline.wb3Stall = none := by
    by_cases hex : MacOp.ofEx (run clk t).dec.pipeline.ex1Stall = none
    · exact .inl hex
    · exact .inr (h.ex (.inl hex)).2.2.1
  constructor
  -- a command finds the unit free
  · intro slot hcom
    have hfree : (Mult.code (run clk t).mult).busy = false := by
      rw [Mult.code, Mult.busy_code, decide_eq_false_iff_not, not_le]
      rw [command_multI] at hcom
      by_cases hex : (run clk t).dec.pipeline.ex1Stall.mulcom2 = .nop
      · rw [if_neg (not_not.mpr hex)] at hcom
        exact Nat.lt_succ_of_le (h.command3 hcom)
      · obtain ⟨-, -, -, hrest⟩ := h.ex (.inl (MacOp.ofEx_ne_none_iff.mpr (.inr (.inl hex))))
        rw [hrest]
        decide
    refine ⟨hfree, ?_⟩
    change Mult.nextState _ _ _ = _
    rw [Mult.nextState, if_pos ⟨hfree, slot⟩]
    rfl
  -- a write to the accumulator finds it at rest
  · intro hwr
    by_cases hex : MacOp.ofEx (run clk t).dec.pipeline.ex1Stall = none
    · obtain ⟨-, -, h3, h4⟩ := MacOp.ofEx_eq_none.mp hex
      apply h.write3
      simpa [multI, mac, Pipeline.mac, h3, h4] using hwr
    · exact (h.ex (.inl hex)).2.2.2
  -- and so does a read, which sees what was issued before
  · intro hread
    obtain ⟨h1, h2, h3, hrest⟩ := h.ex (.inr hread)
    refine ⟨hrest, ?_⟩
    rw [history_issued, pending, MacOp.ofLine, h.read hread, h1, h2, h3]
    simp
  · exact apart
  · exact history_issued t

end MacPath

end JCore
