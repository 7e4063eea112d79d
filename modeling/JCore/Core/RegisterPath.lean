import JCore.Core.RegisterFile
import JCore.Decode.Core
import JCore.Decode.Pipeline
import JCore.Lib.Trace
import JCore.Lib.WriteLog

/-!
# Registers in program order

The pipeline of control signals together with the register file it drives. A
line of microcode writes the Z bus one slot after it is issued and the W bus
three slots after; the execute write reaches the banks two slots later than it
is made. The register conflicts of the decoder, the bubbles of a stall and the
forwarding of the file together hide all of this: a line reads what the lines
before it wrote.

## Main definitions

* `RegPath.step`: one clock of pipeline and register file
* `RegPath.programOrder`: the registers after the first lines, each write made
  in the order of the lines

## Main results

* `RegPath.dout_eq_programOrder`: the read of one line
* `RegPath.reads_program_order`: all reads of a run, and the drained banks
-/

namespace JCore

open RegisterFile DecodeCore

/-- The pipeline of control signals and the register file behind it. -/
structure RegPath where
  p : Pipeline
  regs : RegisterFile 5 21 32

/-- The inputs of a clock: the line that the table presents, a stall for other
reasons than a register conflict, and the values on the two write buses. -/
structure RegPathI where
  slot : Bool
  line : TableLine
  stall : Bool
  zbus : BitVec 32
  wbus : BitVec 32

namespace RegPath

variable (this : RegPath) (i : RegPathI)

def nextIdStall : Bool := regConf this.p i.line.ex i.line.exStall || i.stall

/-- The W-bus write of the line in the last write-back stage. -/
def wbPipe (wbus : BitVec 32) : RegPipe 5 32 :=
  { en := this.p.reg.wrW, data := wbus, addr := this.p.reg.numW }

/-- The Z-bus write of the line in the execute stage. -/
def exPipe0 (zbus : BitVec 32) : RegPipe 5 32 :=
  { en := this.p.reg.wrZ, data := zbus, addr := this.p.reg.numZ }

/-- One clock. -/
def step : RegPath :=
  { p := this.p.step i.slot (this.nextIdStall i) i.line
    regs := this.regs.step (this.wbPipe i.wbus) (this.exPipe0 i.zbus) i.slot }

/-- No write is under way. -/
structure Empty : Prop where
  wrregZ : this.p.ex1Stall.wrregZ = false
  wrregW1 : this.p.wb1Stall.wrregW = false
  wrregW2 : this.p.wb2Stall.wrregW = false
  wrregW3 : this.p.wb3Stall.wrregW = false
  exPipe1 : this.regs.exPipe1.en = false
  exPipe2 : this.regs.exPipe2.en = false

/-- A line writes on one of the buses only, and its register numbers exist. -/
structure LineOk (line : TableLine) : Prop where
  oneBus : ¬(line.exStall.wrregZ ∧ line.wbStall.wrregW)
  rangeZ : line.exStall.wrregZ → line.ex.regnumZ.toNat < 21
  rangeW : line.wbStall.wrregW → line.wb.regnumW.toNat < 21
  rangeX : line.ex.xbusSel = .selReg → line.ex.regnumX.toNat < 21
  rangeY : line.ex.ybusSel = .selReg → line.ex.regnumY.toNat < 21

/-! ### Program order -/

section Slots

variable (s : RegPath) (u : ℕ → RegPathI)

/-- The state before slot `n`. -/
def atSlot : ℕ → RegPath := trace (fun x i => x.step { i with slot := true }) s u

/-- The line presented in slot `n` enters the pipeline. -/
def issued (n : ℕ) : Bool := !(atSlot s u n).nextIdStall (u n)

/-- What the line of slot `n` writes: on the Z bus one slot later, or on the W
bus three slots later. -/
def lineWrite (n : ℕ) : Option (Regnum × BitVec 32) :=
  if issued s u n then
    if (u n).line.exStall.wrregZ then some ((u n).line.ex.regnumZ, (u (n + 1)).zbus)
    else if (u n).line.wbStall.wrregW then some ((u n).line.wb.regnumW, (u (n + 3)).wbus)
    else none
  else none

/-- The registers after the lines of the first `n` slots. -/
def programOrder (port : ReadPort) : ℕ → Regnum → BitVec 32 :=
  afterWrites (s.regs.held port) (lineWrite s u)

end Slots

/-! ### Pending writes -/

section Pending

/-- A value as a pending write leaves it. -/
def through (pipe : RegPipe 5 32) (r : Regnum) (value : BitVec 32) : BitVec 32 :=
  if pipeMatches pipe r then pipe.data else value

/-- The write of one line, which has at most one of the two. -/
def lineOf (z w : RegPipe 5 32) : RegPipe 5 32 :=
  { en := w.en || z.en, data := if z.en then z.data else w.data,
    addr := if z.en then z.addr else w.addr }

/-- The priority of the forwarding gives the order of the lines: the last two
lines before the reader are `z1`, `w2` and `z2`, `w3`. The first one's load does
not concern the register, and its execute write does not meet the other's load. -/
theorem readWithForwarding_eq {r : Regnum} {value : BitVec 32} {z1 z2 w2 w3 : RegPipe 5 32}
    (one : ¬(z2.en ∧ w3.en)) (conf : w2.en → w2.addr ≠ r)
    (late : z1.en → w3.en → z1.addr ≠ w3.addr) :
    readWithForwarding r value w3 z1 z2 =
      through (lineOf z1 w2) r (through (lineOf z2 w3) r value) := by
  have hone : z2.en = true → w3.en = false := by
    intro h
    simpa [h] using one
  by_cases hz1 : z1.en = true
  · by_cases hr : z1.addr = r
    · -- the later line writes the register, so the load does not
      have hw3 : w3.en = true → w3.addr ≠ r := fun h => hr ▸ (late hz1 h).symm
      by_cases hw3en : w3.en = true
      · simp [readWithForwarding, through, lineOf, pipeMatches, hz1, hr, hw3 hw3en]
      · simp [readWithForwarding, through, lineOf, pipeMatches, hz1, hr, hw3en]
    · by_cases hz2 : z2.en = true
      · simp [readWithForwarding, through, lineOf, pipeMatches, hz1, hr, hz2, hone hz2]
      · simp [readWithForwarding, through, lineOf, pipeMatches, hz1, hr, hz2]
  · have hfirst : ∀ v, through (lineOf z1 w2) r v = v := by
      intro v
      by_cases hw2 : w2.en = true
      · simp [through, lineOf, pipeMatches, hz1, conf hw2]
      · simp [through, lineOf, pipeMatches, hz1, hw2]
    rw [hfirst]
    by_cases hz2 : z2.en = true
    · simp [readWithForwarding, through, lineOf, pipeMatches, hz1, hz2, hone hz2]
    · simp [readWithForwarding, through, lineOf, pipeMatches, hz1, hz2]

end Pending

/-- What the conflicts and the shape of the lines ensure about the writes under
way: no line has two, an execute write meets no load of the line before it, and
every register exists. -/
structure Tidy : Prop where
  one1 : ¬(this.p.ex1Stall.wrregZ ∧ this.p.wb1Stall.wrregW)
  one2 : ¬(this.regs.exPipe1.en ∧ this.p.wb2Stall.wrregW)
  one3 : ¬(this.regs.exPipe2.en ∧ this.p.wb3Stall.wrregW)
  late2 : this.p.ex1Stall.wrregZ → this.p.wb2Stall.wrregW →
    this.p.ex1.regnumZ ≠ this.p.wb2.regnumW
  late3 : this.regs.exPipe1.en → this.p.wb3Stall.wrregW →
    this.regs.exPipe1.addr ≠ this.p.wb3.regnumW
  rangeZ0 : this.p.ex1Stall.wrregZ → this.p.ex1.regnumZ.toNat < 21
  rangeZ1 : this.regs.exPipe1.en → this.regs.exPipe1.addr.toNat < 21
  rangeZ2 : this.regs.exPipe2.en → this.regs.exPipe2.addr.toNat < 21
  rangeW1 : this.p.wb1Stall.wrregW → this.p.wb1.regnumW.toNat < 21
  rangeW2 : this.p.wb2Stall.wrregW → this.p.wb2.regnumW.toNat < 21
  rangeW3 : this.p.wb3Stall.wrregW → this.p.wb3.regnumW.toNat < 21

variable {this i}

theorem Empty.tidy (h : this.Empty) : this.Tidy := by
  obtain ⟨h1, h2, h3, h4, h5, h6⟩ := h
  constructor <;> simp [h1, h2, h3, h4, h5, h6]

/-- An issued line has no conflict with the load in the first write-back stage. -/
theorem not_conflict (h : this.nextIdStall i = false) (load : this.p.wb1Stall.wrregW = true) :
    (i.line.ex.xbusSel = .selReg → i.line.ex.regnumX ≠ this.p.wb1.regnumW) ∧
      (i.line.ex.ybusSel = .selReg → i.line.ex.regnumY ≠ this.p.wb1.regnumW) ∧
      (i.line.exStall.wrregZ = true → i.line.ex.regnumZ ≠ this.p.wb1.regnumW) ∧
      (i.line.ex.aluinySel = .selR0 → this.p.wb1.regnumW ≠ 0) := by
  simp only [nextIdStall, regConf, load, Bool.true_and, Bool.or_eq_false_iff, Bool.and_eq_false_iff,
    beq_eq_false_iff_ne] at h
  obtain ⟨⟨⟨⟨hx, hy⟩, hz⟩, h0⟩, -⟩ := h
  refine ⟨fun h => hx.resolve_left (not_not.mpr h), fun h => hy.resolve_left (not_not.mpr h),
    fun h => hz.resolve_left (by simp [h]), fun h => h0.resolve_left (not_not.mpr h)⟩

theorem Tidy.step (h : this.Tidy) (slot : i.slot = true) (ok : LineOk i.line) :
    (this.step i).Tidy := by
  have conf : this.nextIdStall i = false → i.line.exStall.wrregZ = true →
      this.p.wb1Stall.wrregW = true → i.line.ex.regnumZ ≠ this.p.wb1.regnumW :=
    fun hstall hz hw => (not_conflict hstall hw).2.2.1 hz
  rcases hs : this.nextIdStall i with _ | _
  · constructor <;>
      simp only [RegPath.step, Pipeline.step, RegisterFile.step, slot, hs, exPipe0, Pipeline.reg,
        if_true, Bool.false_eq_true, if_false]
    · exact ok.oneBus
    · exact h.one1
    · exact h.one2
    · exact conf hs
    · exact h.late2
    · exact ok.rangeZ
    · exact h.rangeZ0
    · exact h.rangeZ1
    · exact ok.rangeW
    · exact h.rangeW1
    · exact h.rangeW2
  · -- a stalled line leaves a bubble
    constructor <;>
      simp only [RegPath.step, Pipeline.step, RegisterFile.step, slot, hs, exPipe0, Pipeline.reg,
        if_true, stageExStallReset, stageWbStallReset, Bool.false_eq_true, false_and, not_false_eq_true,
        false_implies]
    · exact h.one1
    · exact h.one2
    · exact h.late2
    · exact h.rangeZ0
    · exact h.rangeZ1
    · exact h.rangeW1
    · exact h.rangeW2

/-! ### Runs -/

section Runs

variable {s : RegPath} {u : ℕ → RegPathI}

theorem tidy_atSlot (empty : s.Empty) (ok : ∀ n, LineOk (u n).line) (n : ℕ) :
    (atSlot s u n).Tidy := by
  refine trace_invariant empty.tidy (fun n x h => ?_) n
  exact Tidy.step (i := { u n with slot := true }) h rfl (ok n)

/-- The write of the line in the execute stage of slot `n`. -/
def firstLine (s : RegPath) (u : ℕ → RegPathI) (n : ℕ) : RegPipe 5 32 :=
  lineOf ((atSlot s u n).exPipe0 (u n).zbus)
    { en := (atSlot s u n).p.wb1Stall.wrregW, data := (u (n + 2)).wbus,
      addr := (atSlot s u n).p.wb1.regnumW }

/-- The write of the line before it. -/
def secondLine (s : RegPath) (u : ℕ → RegPathI) (n : ℕ) : RegPipe 5 32 :=
  lineOf (atSlot s u n).regs.exPipe1
    { en := (atSlot s u n).p.wb2Stall.wrregW, data := (u (n + 1)).wbus,
      addr := (atSlot s u n).p.wb2.regnumW }

/-- The write of the line before that, which the banks take in this slot. -/
def thirdLine (s : RegPath) (u : ℕ → RegPathI) (n : ℕ) : RegPipe 5 32 :=
  lineOf (atSlot s u n).regs.exPipe2 ((atSlot s u n).wbPipe (u n).wbus)

theorem secondLine_succ (n : ℕ) : secondLine s u (n + 1) = firstLine s u n := rfl

theorem thirdLine_succ (n : ℕ) : thirdLine s u (n + 1) = secondLine s u n := rfl

/-- The line issued in slot `n` is the one that executes in the next slot. -/
theorem applyWrite_lineWrite (store : Regnum → BitVec 32) (n : ℕ) (r : Regnum) :
    applyWrite store (lineWrite s u n) r = through (firstLine s u (n + 1)) r (store r) := by
  have hp : (atSlot s u (n + 1)).p =
      (atSlot s u n).p.step true ((atSlot s u n).nextIdStall (u n)) (u n).line := rfl
  rw [firstLine, exPipe0, Pipeline.reg, hp, lineWrite, issued]
  rcases (atSlot s u n).nextIdStall (u n) with _ | _
  · by_cases hz : (u n).line.exStall.wrregZ = true
    · simp [Pipeline.step, through, lineOf, pipeMatches, hz, applyWrite_some, eq_comm (a := r)]
    · by_cases hw : (u n).line.wbStall.wrregW = true
      · simp [Pipeline.step, through, lineOf, pipeMatches, hz, hw, applyWrite_some, eq_comm (a := r)]
      · simp [Pipeline.step, through, lineOf, pipeMatches, hz, hw]
  · simp [Pipeline.step, through, lineOf, pipeMatches, stageExStallReset, stageWbStallReset]

/-- A slot writes the last pending line to the banks. -/
theorem held_atSlot_succ {port : ReadPort} {r : Regnum} (n : ℕ) (tidy : (atSlot s u n).Tidy)
    (addr : PortAddr 21 port r) :
    (atSlot s u (n + 1)).regs.held port r =
      through (thirdLine s u n) r ((atSlot s u n).regs.held port r) := by
  refine held_step (atSlot s u n).regs ((atSlot s u n).wbPipe (u n).wbus) _ addr ?_
  intro hen
  rcases hz : (atSlot s u n).regs.exPipe2.en with _ | _
  · rw [bankWrite, hz, Bool.or_false] at hen
    simpa [bankWrite, hz, wbPipe, Pipeline.reg] using tidy.rangeW3 hen
  · simpa [bankWrite, hz] using tidy.rangeZ2 hz

/-- The lines issued so far are the banks with the three lines under way on top. -/
theorem programOrder_eq {port : ReadPort} {r : Regnum} (empty : s.Empty)
    (ok : ∀ n, LineOk (u n).line) (addr : PortAddr 21 port r) (n : ℕ) :
    programOrder s u port n r =
      through (firstLine s u n) r (through (secondLine s u n) r
        (through (thirdLine s u n) r ((atSlot s u n).regs.held port r))) := by
  induction n with
  | zero =>
    obtain ⟨h1, h2, h3, h4, h5, h6⟩ := empty
    simp [programOrder, afterWrites, firstLine, secondLine, thirdLine, atSlot, through, lineOf,
      pipeMatches, exPipe0, wbPipe, Pipeline.reg, h1, h2, h3, h4, h5, h6]
  | succ n ih =>
    rw [programOrder, afterWrites_succ, applyWrite_lineWrite, ← programOrder, ih, secondLine_succ,
      thirdLine_succ, held_atSlot_succ n (tidy_atSlot empty ok n) addr]

/-- A line reads in its execute stage what the lines before it wrote. -/
theorem dout_eq_programOrder (port : ReadPort) {r : Regnum} (empty : s.Empty)
    (ok : ∀ n, LineOk (u n).line) (addr : PortAddr 21 port r) (n : ℕ)
    (conf : (atSlot s u n).p.wb1Stall.wrregW = true → (atSlot s u n).p.wb1.regnumW ≠ r) :
    (atSlot s u (n + 1)).regs.dout ((atSlot s u (n + 1)).wbPipe (u (n + 1)).wbus) port r =
      programOrder s u port n r := by
  have tidy := tidy_atSlot empty ok (n + 1)
  rw [programOrder_eq empty ok addr, ← held_atSlot_succ n (tidy_atSlot empty ok n) addr,
    ← secondLine_succ, ← thirdLine_succ]
  exact readWithForwarding_eq tidy.one3 conf tidy.late3

theorem firstLine_en_of_not_issued {n : ℕ} (h : issued s u n = false) :
    (firstLine s u (n + 1)).en = false := by
  have hp : (atSlot s u (n + 1)).p =
      (atSlot s u n).p.step true ((atSlot s u n).nextIdStall (u n)) (u n).line := rfl
  rw [issued, Bool.not_eq_false'] at h
  rw [firstLine, exPipe0, Pipeline.reg, hp, h]
  rfl

/-- After three slots without a line the banks hold all that was written. -/
theorem held_eq_programOrder {port : ReadPort} {r : Regnum} (empty : s.Empty)
    (ok : ∀ n, LineOk (u n).line) (addr : PortAddr 21 port r) {n : ℕ}
    (h0 : issued s u n = false) (h1 : issued s u (n + 1) = false)
    (h2 : issued s u (n + 2) = false) :
    (atSlot s u (n + 3)).regs.held port r = programOrder s u port (n + 3) r := by
  have third : (thirdLine s u (n + 3)).en = false := firstLine_en_of_not_issued h0
  have second : (secondLine s u (n + 3)).en = false := firstLine_en_of_not_issued h1
  have first : (firstLine s u (n + 3)).en = false := firstLine_en_of_not_issued h2
  rw [programOrder_eq empty ok addr]
  simp [through, pipeMatches, first, second, third]

end Runs

/-! ### Clocks -/

/-- A clock that is no slot changes nothing. -/
theorem step_of_not_slot (x : RegPath) (i : RegPathI) (h : i.slot = false) : x.step i = x := by
  simp [RegPath.step, Pipeline.step, RegisterFile.step, h]

theorem trace_step_eq_atSlot (s : RegPath) (clk : ℕ → RegPathI) (t : ℕ) :
    trace RegPath.step s clk t =
      atSlot s (enabledInput RegPathI.slot clk) (enabledCount RegPathI.slot clk t) := by
  refine trace_eq_enabled RegPathI.slot step_of_not_slot ?_ t
  rintro x ⟨slot, line, stall, zbus, wbus⟩ h
  obtain rfl : slot = true := h
  rfl

/-- Whether the line of a slot is issued, at the clock of the slot. -/
theorem issued_enabledCount {s : RegPath} {clk : ℕ → RegPathI} {t : ℕ} (h : (clk t).slot = true) :
    issued s (enabledInput RegPathI.slot clk) (enabledCount RegPathI.slot clk t) =
      !(trace RegPath.step s clk t).nextIdStall (clk t) := by
  rw [issued, ← trace_step_eq_atSlot, enabledInput_count RegPathI.slot h]

/-- Each issued line reads in the slot after its own what the lines before it
wrote, on every port that it selects. -/
def ReadsInOrder (s : RegPath) (clk : ℕ → RegPathI) : Prop :=
  let u := enabledInput RegPathI.slot clk
  let state := trace RegPath.step s clk
  ∀ t n, (clk t).slot = true → enabledCount RegPathI.slot clk t = n + 1 → issued s u n = true →
    ((u n).line.ex.xbusSel = .selReg →
      (state t).regs.dout ((state t).wbPipe (clk t).wbus) .a (state t).p.reg.numX =
        programOrder s u .a n (u n).line.ex.regnumX) ∧
    ((u n).line.ex.ybusSel = .selReg →
      (state t).regs.dout ((state t).wbPipe (clk t).wbus) .b (state t).p.reg.numY =
        programOrder s u .b n (u n).line.ex.regnumY) ∧
    ((u n).line.ex.aluinySel = .selR0 →
      (state t).regs.dout ((state t).wbPipe (clk t).wbus) .zero 0 = programOrder s u .zero n 0)

/-- After three slots in which no line was issued every copy of a register holds
its final value. -/
def DrainsInOrder (s : RegPath) (clk : ℕ → RegPathI) : Prop :=
  let u := enabledInput RegPathI.slot clk
  let state := trace RegPath.step s clk
  ∀ t n, enabledCount RegPathI.slot clk t = n + 3 → issued s u n = false →
    issued s u (n + 1) = false → issued s u (n + 2) = false → ∀ port r, PortAddr 21 port r →
      (state t).regs.held port r = programOrder s u port (n + 3) r

/-- An issued line reads in program order on the ports that it selects. -/
theorem readsInOrder (s : RegPath) (empty : s.Empty) (clk : ℕ → RegPathI)
    (ok : ∀ t, LineOk (clk t).line) : ReadsInOrder s clk := by
  have okSlots : ∀ n, LineOk (enabledInput RegPathI.slot clk n).line := fun n => ok _
  intro t n hslot hn hissued
  have hinput := enabledInput_count RegPathI.slot hslot
  rw [hn] at hinput
  rw [trace_step_eq_atSlot, hn, ← hinput]
  have free : (atSlot s (enabledInput RegPathI.slot clk) n).nextIdStall
      (enabledInput RegPathI.slot clk n) = false := by simpa [issued] using hissued
  refine ⟨fun hx => ?_, fun hy => ?_, fun h0 => ?_⟩
  · exact dout_eq_programOrder .a empty okSlots ⟨(okSlots n).rangeX hx, nofun⟩ n
      fun load => ((not_conflict free load).1 hx).symm
  · exact dout_eq_programOrder .b empty okSlots ⟨(okSlots n).rangeY hy, nofun⟩ n
      fun load => ((not_conflict free load).2.1 hy).symm
  · exact dout_eq_programOrder .zero empty okSlots ⟨by decide, fun _ => rfl⟩ n
      fun load => (not_conflict free load).2.2.2 h0

theorem drainsInOrder (s : RegPath) (empty : s.Empty) (clk : ℕ → RegPathI)
    (ok : ∀ t, LineOk (clk t).line) : DrainsInOrder s clk := by
  have okSlots : ∀ n, LineOk (enabledInput RegPathI.slot clk n).line := fun n => ok _
  intro t n hn h0 h1 h2 port r addr
  rw [trace_step_eq_atSlot, hn]
  exact held_eq_programOrder empty okSlots addr h0 h1 h2

/-- On every pattern of slots, lines and stalls the issued lines read the
registers in program order, and a drained pipeline leaves them so in the banks. -/
theorem reads_program_order (s : RegPath) (empty : s.Empty) (clk : ℕ → RegPathI)
    (ok : ∀ t, LineOk (clk t).line) : ReadsInOrder s clk ∧ DrainsInOrder s clk :=
  ⟨readsInOrder s empty clk ok, drainsInOrder s empty clk ok⟩

/-- A load of register 1, followed at once by a line that reads it and writes
register 2, and which therefore waits for a slot. In the end all lines are stalled. -/
def loadUse : ℕ → RegPathI
  | 0 =>
    { slot := true, stall := false, zbus := 0, wbus := 0
      line :=
        { idleLine with
          wb := { stageWbReset with regnumW := 1 }
          wbStall := { stageWbStallReset with wrregW := true } } }
  | 1 | 2 =>
    { slot := true, stall := false, zbus := 0, wbus := 0
      line :=
        { idleLine with
          ex := { stageExReset with xbusSel := .selReg, regnumX := 1, regnumZ := 2 }
          exStall := { stageExStallReset with wrregZ := true } } }
  | n + 3 => { slot := n != 1, stall := 5 ≤ n, zbus := 7, wbus := 5, line := idleLine }

/-- The state after reset, with cleared memory blocks. -/
def afterReset : RegPath := { p := pipelineReset, regs := reset (fun _ => 0) (fun _ => 0) }

/-- The three slots from the eighth on are without a line, so the banks hold what the load and
the line after it have written. -/
theorem reads_program_order_loadUse :
    (ReadsInOrder afterReset loadUse ∧ DrainsInOrder afterReset loadUse) ∧
      programOrder afterReset (enabledInput RegPathI.slot loadUse) .a 10 1 = 5 ∧
        programOrder afterReset (enabledInput RegPathI.slot loadUse) .b 10 2 = 7 := by
  have order := reads_program_order afterReset ⟨rfl, rfl, rfl, rfl, rfl, rfl⟩ loadUse fun t => by
    rcases t with _ | _ | _ | t <;> constructor <;>
      simp [loadUse, idleLine, stageExReset, stageExStallReset, stageWbReset, stageWbStallReset]
  have drained := order.2 11 7 (by decide)
    (@issued_enabledCount afterReset loadUse 8 rfl)
    (@issued_enabledCount afterReset loadUse 9 rfl)
    (@issued_enabledCount afterReset loadUse 10 rfl)
  refine ⟨order, ?_, ?_⟩
  · rw [← drained .a 1 ⟨by decide, nofun⟩]
    decide
  · rw [← drained .b 2 ⟨by decide, nofun⟩]
    decide

end RegPath

end JCore
