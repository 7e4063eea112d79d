import JCore.Core.Debug
import JCore.Core.Locked
import JCore.Decode.Instructions

/-!
# The front end of the CPU

The program counter, the word to be decoded and the fetch under way, over one clock
of a CPU that nothing but its program drives. A fetch is under way from the slot
that starts it to the slot that takes its word, however long the memory needs: the
word may be outstanding or may wait in the data path. So a clock without a slot
changes nothing, and a slot moves PC, the word and the fetch as the line presented
in it says.

## Main definitions

* `Undisturbed`: no events, no debugger, and fetches answered from one memory
* `Pending`: the fetch under way
* `Front`: program counter, word and fetch

## Main results

* `Front.wait`, `Front.slot`: what one clock does
-/

namespace JCore

open Datapath DecodeTable

/-- The contents of an instruction memory. -/
abbrev InstrMemory := BitVec 31 → BitVec 16

/-- The instruction at an address, whose lowest bit does not matter. -/
def wordAt (memory : InstrMemory) (a : BitVec 32) : BitVec 16 := memory (a.extractLsb' 1 31)

/-! ### Without a debugger -/

/-- The data path runs, and nothing of a debug session is left in it. -/
structure Calm (this : DatapathReg) : Prop where
  run : this.debugState = .run
  enterDebug : this.enterDebug = 0
  stopPcInc : this.stopPcInc = false
  ybusOverride0 : this.ybusOverride0.en = false

section Clock

variable {this : DatapathReg} {ctrl : StageCtrl} {dec : DecodeCtrl} {v : ProcessI} {i : DatapathI}

theorem process_enterDebug :
    (process this ctrl dec v i).enterDebug = (answered this dec i).enterDebug := by
  have hsettle : (settle this ctrl dec i).enterDebug = (answered this dec i).enterDebug := by
    rw [settle, startSlot]
  rw [process]
  split_ifs
  · exact hsettle
  · exact hsettle

theorem answered_enterDebug (calm : Calm this) (debug : i.debugI.en = false) :
    (answered this dec i).enterDebug = 0 := by
  have asked : breakAsked this i = false := by simp [breakAsked, debug]
  have entry : (debugEntry this dec i).enterDebug = 0 := by
    simp only [debugEntry, asked, calm.enterDebug]
    simp
  have cmd : ∀ cmd, debugCmd (dataDone (debugEntry this dec i) i) i cmd = false := by
    intro cmd
    simp [debugCmd, debug]
  have done : (instDone (dataDone (debugEntry this dec i) i) dec i).enterDebug = 0 := by
    simp only [instDone, cmd, Bool.false_eq_true, if_false]
    exact entry
  rw [answered, shiftEnterDebug, holdPc]
  simp only [done]
  simp

/-- A clock without a debug command and without the instruction `BREAK`. -/
theorem Calm.process (calm : Calm this) (debug : i.debugI.en = false) (line : dec.debug = false) :
    Calm (process this ctrl dec v i) where
  run := by
    rw [process_debugState_of_run ctrl dec v i calm.run]
    simp [breakRan, breakAsked, line, debug]
  enterDebug := by rw [process_enterDebug, answered_enterDebug calm debug]
  stopPcInc := by
    refine process_stopPcInc_of_run _ _ _ _ _ ?_
    rw [process_debugState_of_run ctrl dec v i calm.run]
    simp [breakRan, breakAsked, line, debug]
  ybusOverride0 := by rw [process_ybusOverride0_of_run _ _ _ _ _ calm.run, calm.ybusOverride0]

end Clock

/-- No value for the Y bus comes from the debugger. -/
structure Unforced (this : DatapathReg) : Prop where
  ybusOverride0 : this.ybusOverride0.en = false
  ybusOverride1 : this.ybusOverride1.en = false
  ybusOverride2 : this.ybusOverride2.en = false

theorem Unforced.process {this : DatapathReg} {ctrl : StageCtrl} {dec : DecodeCtrl} {v : ProcessI}
    {i : DatapathI} (h : Unforced this) (quiet : i.debugI.en = false) :
    Unforced (process this ctrl dec v i) := by
  have insert : debugCmd (dataDone (debugEntry this dec i) i) i .insert = false := by
    simp [debugCmd, quiet]
  have settled : Unforced (settle this ctrl dec i) := by
    refine ⟨?_, ?_, ?_⟩
    · rw [settle, startSlot, answered_eq]
      exact h.ybusOverride0
    · rw [settle, startSlot, answered_eq]
      exact h.ybusOverride1
    · simp only [settle, startSlot, answered, shiftEnterDebug, holdPc, instDone, insert]
      exact h.ybusOverride2
  have request : ∀ x : DatapathReg, Unforced x → ∀ state, Unforced (newInstRequest x state dec v) := by
    intro x hx state
    rw [newInstRequest]
    cases instPauses x state dec with
    | true => exact ⟨hx.ybusOverride1, hx.ybusOverride2, rfl⟩
    | false => exact ⟨hx.ybusOverride0, hx.ybusOverride1, hx.ybusOverride2⟩
  have data : Unforced (newDataRequest (settle this ctrl dec i) ctrl v) :=
    ⟨settled.ybusOverride0, settled.ybusOverride1, settled.ybusOverride2⟩
  have next := request _ data (settleState this dec i)
  rw [Datapath.process]
  split
  · exact ⟨next.ybusOverride0, next.ybusOverride1, next.ybusOverride2⟩
  · exact ⟨settled.ybusOverride0, settled.ybusOverride1, settled.ybusOverride2⟩

section Clock

variable {this : DatapathReg} {ctrl : StageCtrl} {dec : DecodeCtrl} {v : ProcessI} {i : DatapathI}

/-! ### The fetch under way -/

/-- The word at `a` is outstanding on the instruction bus, or waits for a slot. -/
def Awaits (memory : InstrMemory) (this : DatapathReg) (a : BitVec 32) : Prop :=
  (this.instO.en = true ∧ this.instO.a = a.extractLsb' 1 31 ∧ this.ifEn = false) ∨
    (this.instO.en = false ∧ this.ifEn = true ∧ this.ifDrNext = wordAt memory a)

/-- The fetch under way, if there is one. -/
def Pending (memory : InstrMemory) (this : DatapathReg) : Option (BitVec 32) → Prop
  | none => this.instO.en = false ∧ this.ifEn = false
  | some a => Awaits memory this a

/-- Fetches are answered from the memory. -/
def Answers (memory : InstrMemory) (this : DatapathReg) (i : DatapathI) : Prop :=
  this.instO.en = true → i.instI.ack = true → i.instI.d = memory this.instO.a

variable {memory : InstrMemory} {pending : Option (BitVec 32)}

theorem instReady_eq (calm : Calm this) (fetch : Pending memory this pending)
    (answer : Answers memory this i) (slot : slotO this i = true) :
    instReady this i = pending.map (wordAt memory) := by
  have insert : debugCmd this i .insert = false :=
    debugCmd_eq_false _ _ _ (by simp [calm.run])
  cases pending with
  | none =>
    obtain ⟨hen, hif⟩ := fetch
    simp [instReady, instWord, instAcked, hen, hif, insert]
  | some a =>
    rcases fetch with ⟨hen, haddr, hif⟩ | ⟨hen, hif, hword⟩
    · have hack : i.instI.ack = true := by
        simp only [slotO, hen, Bool.true_and, Bool.not_not, Bool.and_eq_true] at slot
        exact slot.1.2
      have hd : i.instI.d = wordAt memory a := by
        rw [answer hen hack, haddr]
        rfl
      simp [instReady, instWord, instAcked, hen, hack, hd]
    · simp [instReady, instWord, instAcked, hen, hif, hword, insert]

theorem debugFetches_eq_false (calm : Calm this) : debugFetches this i = false := by
  have ready : this.debugState ≠ .ready := by simp [calm.run]
  rw [debugFetches, debugCmd_eq_false _ _ _ ready, debugCmd_eq_false _ _ _ ready]
  rfl

/-- A clock without a slot leaves the fetch under way. -/
theorem Pending.wait (calm : Calm this) (fetch : Pending memory this pending)
    (answer : Answers memory this i) (slot : slotO this i = false) :
    Pending memory (process this ctrl dec v i) pending := by
  have insert : debugCmd this i .insert = false :=
    debugCmd_eq_false _ _ _ (by simp [calm.run])
  cases pending with
  | none =>
    obtain ⟨hen, hif⟩ := fetch
    rw [Pending, process_instO, process_ifEn, debugFetches_eq_false calm]
    simp [instAcked, hen, hif, insert, slot]
  | some a =>
    rw [Pending, Awaits, process_instO, process_ifEn, process_ifDrNext_of_not_slot _ _ _ _ _ slot,
      debugFetches_eq_false calm, instWord]
    rcases fetch with ⟨hen, haddr, hif⟩ | ⟨hen, hif, hword⟩
    · cases hack : i.instI.ack with
      | false => simp [instAcked, hen, haddr, hif, hack, insert, slot]
      | true =>
        have hd : i.instI.d = wordAt memory a := by
          rw [answer hen hack, haddr]
          rfl
        simp [instAcked, hen, hack, hd, insert, slot, nullInstO]
    · simp [instAcked, hen, hif, hword, insert, slot]

/-- A slot ends the fetch under way and starts the one the line asks for. -/
theorem pending_of_slot (calm : Calm this) (pcInc : this.pcInc = this.pc + 2) (slot : slotO this i = true) :
    Pending memory (process this ctrl dec v i)
      (if dec.instr.issue then some (if dec.instr.addrSel then v.zbus else this.pc + 2)
      else none) := by
  have request : slotRequest this dec v = if dec.instr.issue then
      some (toInstO dec.instr (if dec.instr.addrSel then v.zbus else this.pc + 2) dec.instr.addrSel)
      else none := by
    simp [slotRequest, heldPcInc, calm.run, calm.stopPcInc, pcInc]
  have free : (if instAcked this i then nullInstO else this.instO).en = false := by
    have started := slot
    simp only [slotO, Bool.and_eq_true, Bool.not_eq_true', Bool.and_eq_false_iff] at started
    cases hack : instAcked this i with
    | true => rfl
    | false =>
      rw [if_neg Bool.false_ne_true]
      rcases started.1.2 with h | h
      · exact h
      · rw [Bool.not_eq_false'] at h
        rwa [instAcked, h, Bool.and_true] at hack
  cases issue : dec.instr.issue with
  | true =>
    rw [if_pos rfl, Pending, Awaits, process_instO, process_ifEn, slot, if_pos rfl, request, issue,
      if_pos rfl]
    exact Or.inl ⟨by simp [toInstO, issue], by simp [toInstO, issue], by simp⟩
  | false =>
    rw [if_neg Bool.false_ne_true, Pending, process_instO, process_ifEn, slot, if_pos rfl, request,
      issue, if_neg Bool.false_ne_true, debugFetches_eq_false calm]
    exact ⟨free, by simp⟩

/-! ### The front end -/

/-- The program counter, the word in the instruction register with the marks of the
two checks, and the fetch under way. -/
structure Front (memory : InstrMemory) (this : DatapathReg) (counter : BitVec 32)
    (pending : Option (BitVec 32)) (word : BitVec 16) : Prop where
  calm : Calm this
  pc : this.pc = counter
  pcInc : this.pcInc = counter + 2
  fetch : Pending memory this pending
  ifDr : this.ifDr = word
  illegalDelaySlot : this.illegalDelaySlot = checkIllegalDelaySlot word
  illegalInstr : this.illegalInstr = checkIllegalInstruction word

variable {counter : BitVec 32} {word : BitVec 16}

/-- A clock without a slot moves nothing. -/
theorem Front.wait (h : Front memory this counter pending word) (answer : Answers memory this i)
    (debug : i.debugI.en = false) (line : dec.debug = false) (slot : slotO this i = false) :
    Front memory (process this ctrl dec v i) counter pending word where
  calm := h.calm.process debug line
  pc := by rw [process_pc, slot, if_neg Bool.false_ne_true, h.pc]
  pcInc := by rw [process_pcInc, process_pc, slot, if_neg Bool.false_ne_true, h.pc]
  fetch := h.fetch.wait h.calm answer slot
  ifDr := by rw [process_ifDr, slot, if_neg Bool.false_ne_true, h.ifDr]
  illegalDelaySlot := by
    rw [process_illegalDelaySlot, slot, if_neg Bool.false_ne_true, h.illegalDelaySlot]
  illegalInstr := by rw [process_illegalInstr, slot, if_neg Bool.false_ne_true, h.illegalInstr]

/-- A slot: PC, the fetch that is started, and the word that arrived. -/
theorem Front.slot (h : Front memory this counter pending word) (answer : Answers memory this i)
    (debug : i.debugI.en = false) (line : dec.debug = false) (slot : slotO this i = true) :
    Front memory (process this ctrl dec v i)
      (if ctrl.wrZ then v.zbus else if dec.inc then counter + 2 else counter)
      (if dec.instr.issue then some (if dec.instr.addrSel then v.zbus else counter + 2) else none)
      ((pending.map (wordAt memory)).getD word) := by
  have ready := instReady_eq h.calm h.fetch answer slot
  have hpc : (process this ctrl dec v i).pc =
      if ctrl.wrZ then v.zbus else if dec.inc then counter + 2 else counter := by
    rw [process_pc, slot, if_pos rfl, slotPc, heldPcInc, h.calm.stopPcInc, h.pcInc, h.pc,
      if_neg Bool.false_ne_true]
  constructor
  case calm => exact h.calm.process debug line
  case pc => exact hpc
  case pcInc => rw [process_pcInc, hpc]
  case fetch =>
    rw [← h.pc]
    exact pending_of_slot h.calm (h.pc.symm ▸ h.pcInc) slot
  case ifDr => rw [process_ifDr, slot, if_pos rfl, ready, h.ifDr]
  case illegalDelaySlot =>
    rw [process_illegalDelaySlot, slot, if_pos rfl, ready, h.illegalDelaySlot]
    cases pending <;> rfl
  case illegalInstr =>
    rw [process_illegalInstr, slot, if_pos rfl, ready, h.illegalInstr]
    cases pending <;> rfl

end Clock

/-! ### In a run of the CPU -/

namespace CpuRun

variable (run : CpuRun)

/-- Nothing but the instructions in a memory drives the CPU. -/
structure Undisturbed (memory : InstrMemory) : Prop where
  event : ∀ t, (run.clk t).eventI.en = false
  debug : ∀ t, (run.clk t).debugI.en = false
  answers : ∀ t, Answers memory (run.state t).data.this (run.clk t).datapathI

/-- The front end before clock `t`. -/
abbrev FrontAt (memory : InstrMemory) (t : ℕ) (counter : BitVec 32) (pending : Option (BitVec 32))
    (word : BitVec 16) : Prop := Front memory (run.state t).data.this counter pending word

/-- The Z bus in clock `t`. -/
def zbus (t : ℕ) : BitVec 32 := (Cpu.processI run.coproDecode (run.state t) (run.clk t)).zbus

/-- The line in the execute stage assigns to PC. -/
def wrpc (t : ℕ) : Bool := (run.state t).dec.pipeline.ex1Stall.wrpcZ

variable {run} {memory : InstrMemory} {t : ℕ} {counter : BitVec 32} {pending : Option (BitVec 32)}
  {word : BitVec 16}

theorem unforced (debug : ∀ t, (run.clk t).debugI.en = false) (t : ℕ) :
    Unforced (run.state t).data.this := by
  induction t with
  | zero => exact ⟨rfl, rfl, rfl⟩
  | succ t ih => exact ih.process (debug t)

theorem FrontAt.wait (h : run.FrontAt memory t counter pending word) (quiet : run.Undisturbed memory)
    (line : debug (microcodeLine (run.op t).addr) = false) (slot : run.slot t = false) :
    run.FrontAt memory (t + 1) counter pending word :=
  Front.wait h (quiet.answers t) (quiet.debug t) line slot

/-- What a slot does to the front end, by the line presented and whether it is stalled. -/
theorem FrontAt.slot (h : run.FrontAt memory t counter pending word) (quiet : run.Undisturbed memory)
    (line : debug (microcodeLine (run.op t).addr) = false) (slot : run.slot t = true) :
    run.FrontAt memory (t + 1)
      (if run.wrpc t then run.zbus t
        else if incpc (microcodeLine (run.op t).addr) && !run.stalled t then counter + 2 else counter)
      (if ifIssue (microcodeLine (run.op t).addr) (run.tBcc t) && !run.stalled t then
          some (if ifadsel (microcodeLine (run.op t).addr) then run.zbus t else counter + 2)
        else none)
      ((pending.map (wordAt memory)).getD word) := by
  have next := @Front.slot _ (Cpu.ctrl run.coproDecode (run.state t))
    (Cpu.decodeCtrl run.coproDecode (run.state t) (run.clk t))
    (Cpu.processI run.coproDecode (run.state t) (run.clk t)) _ _ _ _ _ h (quiet.answers t)
    (quiet.debug t) line slot
  have issue : (Cpu.decodeCtrl run.coproDecode (run.state t) (run.clk t)).instr.issue =
      (ifIssue (microcodeLine (run.op t).addr) (run.tBcc t) && !run.stalled t) := by
    have stall : run.stalled t = DecodeCore.nextIdStall (Decoder.coreI (run.state t).dec
        (Cpu.decoderI (run.state t) (run.clk t))
        (Cpu.line run.coproDecode (run.state t) (run.clk t))) := rfl
    rw [stall, DecodeCore.nextIdStall, Bool.not_or, Bool.not_or]
    -- there is no stall of the fetch, the other two suppress it as they do the line
    simp only [Cpu.decodeCtrl, DecodeCore.instr, Bool.and_assoc]
    rfl
  rw [issue] at next
  exact next

end CpuRun

end JCore
