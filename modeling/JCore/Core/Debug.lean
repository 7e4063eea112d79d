import JCore.Core.Transactions

/-!
# Debug mode

The debug state of the data path, clock by clock: `RUN`, `AWAIT_BREAK` after a
request to stop or a step, `AWAIT_IF` until the CPU asks for an instruction, and
`READY` while it is held. Each state has one lemma that says where a clock
leads; the acknowledgement and the hold of PC follow from the state reached.

## Main results

* `process_debugState_of_run` and its siblings: the transitions
* `process_ack`: a command is acknowledged when `RUN` or `READY` is reached
* `process_of_ready`: while `READY` nothing moves
* `process_ignores`: a command that the state does not take changes nothing
-/

namespace JCore.Datapath

variable (this : DatapathReg) (ctrl : StageCtrl) (dec : DecodeCtrl) (v : ProcessI) (i : DatapathI)

/-! ### Transitions -/

section Transitions

variable {this}

theorem slotO_of_ready (h : this.debugState = .ready) : slotO this i = false := by
  simp [slotO, h]

theorem process_debugState_of_ready (h : this.debugState = .ready) :
    (process this ctrl dec v i).debugState =
      if debugCmd this i .insert then .awaitIf
      else if debugCmd this i .step then .awaitBreak
      else if debugCmd this i .continue then .run
      else .ready := by
  rw [process_debugState, slotO_of_ready i h, settleState, instDoneState, debugCmd_dataDone,
    debugCmd_dataDone, debugCmd_dataDone]
  simp [debugEntryState, breakRan, breakAsked, h]

/-- Outside of debug mode a clock is no place for commands. -/
theorem settleState_of_ne_ready (h : this.debugState ≠ .ready) :
    settleState this dec i = debugEntryState this dec i := by
  rw [settleState, instDoneState, debugCmd_dataDone, debugCmd_dataDone, debugCmd_dataDone]
  simp [debugCmd_eq_false this i _ h]

theorem process_debugState_of_run (h : this.debugState = .run) :
    (process this ctrl dec v i).debugState =
      if breakRan this dec then .awaitIf
      else if breakAsked this i then .awaitBreak
      else .run := by
  have hpause (state : DebugState) : instPauses this state dec = false := by simp [instPauses, h]
  rw [process_debugState, settleState_of_ne_ready dec i (by simp [h]), newInstRequestState, hpause]
  simp [debugEntryState, h]

theorem process_debugState_of_awaitBreak (h : this.debugState = .awaitBreak) :
    (process this ctrl dec v i).debugState =
      if breakRan this dec then .awaitIf else .awaitBreak := by
  have hpause (state : DebugState) : instPauses this state dec = false := by simp [instPauses, h]
  rw [process_debugState, settleState_of_ne_ready dec i (by simp [h]), newInstRequestState, hpause]
  simp [debugEntryState, breakAsked, h]

theorem process_debugState_of_awaitIf (h : this.debugState = .awaitIf) :
    (process this ctrl dec v i).debugState =
      if slotO this i && dec.instr.issue then .ready else .awaitIf := by
  rw [process_debugState, settleState_of_ne_ready dec i (by simp [h]), newInstRequestState]
  cases slotO this i <;> cases hissue : dec.instr.issue <;>
    simp [debugEntryState, breakRan, breakAsked, instPauses, h, hissue]

end Transitions

/-! ### The acknowledgement and the hold of PC -/

/-- The states in which a command is acknowledged when they are reached. -/
def DebugState.settled (state : DebugState) : Bool := state == .run || state == .ready

theorem debugAck_ack (state : DebugState) :
    (debugAck this state v i).debugO.ack =
      if DebugState.settled state then i.debugI.en else this.debugO.ack := rfl

theorem debugAck_stopPcInc_eq (state : DebugState) :
    (debugAck this state v i).stopPcInc =
      if DebugState.settled state then false else this.stopPcInc := rfl

/-- The record that the acknowledgement is made from. -/
theorem process_eq_debugAck : ∃ before : DatapathReg,
    process this ctrl dec v i = debugAck before (process this ctrl dec v i).debugState v i ∧
      before.debugO = (answered this dec i).debugO ∧
      before.stopPcInc = (answered this dec i).stopPcInc := by
  have hsettle : (settle this ctrl dec i).debugO = (answered this dec i).debugO ∧
      (settle this ctrl dec i).stopPcInc = (answered this dec i).stopPcInc := by
    rw [settle, startSlot]
    exact ⟨rfl, rfl⟩
  rw [process]
  split_ifs
  · rw [debugAck_debugState]
    exact ⟨_, rfl, hsettle⟩
  · rw [debugAck_debugState]
    exact ⟨_, rfl, hsettle⟩

theorem answered_ack : (answered this dec i).debugO.ack = debugCmd this i .break := by
  simp only [answered, shiftEnterDebug, holdPc, instDone, debugCmd_dataDone]
  simp [dataDone, debugEntry]

/-- A command is acknowledged in the clock that leads to `RUN` or `READY`. -/
theorem process_ack : (process this ctrl dec v i).debugO.ack =
    (i.debugI.en && DebugState.settled (process this ctrl dec v i).debugState) := by
  obtain ⟨before, heq, hdebugO, -⟩ := process_eq_debugAck this ctrl dec v i
  rw [heq, debugAck_ack, debugAck_debugState, hdebugO, answered_ack]
  cases hsettled : DebugState.settled (process this ctrl dec v i).debugState
  · -- a `BREAK` that is answered at once leaves the CPU ready
    have hbreak : debugCmd this i .break = false := by
      by_contra hcmd
      rw [Bool.not_eq_false] at hcmd
      have hready : this.debugState = .ready := by
        by_contra hne
        rw [debugCmd_eq_false this i _ hne] at hcmd
        cases hcmd
      have hkind : i.debugI.cmd = .break := by
        simp only [debugCmd, Bool.and_eq_true, beq_iff_eq] at hcmd
        exact hcmd.2
      rw [process_debugState_of_ready ctrl dec v i hready] at hsettled
      simp [debugCmd, hkind, DebugState.settled] at hsettled
    simp [hbreak]
  · simp

theorem process_stopPcInc : (process this ctrl dec v i).stopPcInc =
    (!DebugState.settled (process this ctrl dec v i).debugState &&
      (debugCmd this i .insert || this.stopPcInc)) := by
  obtain ⟨before, heq, -, hstop⟩ := process_eq_debugAck this ctrl dec v i
  rw [heq, debugAck_stopPcInc_eq, debugAck_debugState, hstop, answered_eq]
  cases DebugState.settled (process this ctrl dec v i).debugState <;> simp

/-! ### What stays -/

/-- While the CPU is held no slot occurs, and PC, SR and the word of the last
load stay. -/
theorem process_of_ready (h : this.debugState = .ready) :
    (process this ctrl dec v i).slot = false ∧ (process this ctrl dec v i).pc = this.pc ∧
      (process this ctrl dec v i).sr = this.sr ∧ (process this ctrl dec v i).mDr = this.mDr := by
  have hslot := slotO_of_ready i h
  refine ⟨?_, ?_, ?_, ?_⟩
  · rw [process_slot, hslot]
  · rw [process_pc, hslot, if_neg Bool.false_ne_true]
  · rw [process_sr, hslot, if_neg Bool.false_ne_true]
  · rw [process_mDr, hslot, if_neg Bool.false_ne_true]

/-- The inputs of a clock without its debug command. -/
def withoutDebug : DatapathI := { i with debugI := { i.debugI with en := false } }

/-- The state takes no notice of the command. -/
def Ignores : Prop :=
  breakAsked this i = false ∧ ∀ cmd, cmd ≠ .break → debugCmd this i cmd = false

theorem ignores_withoutDebug : Ignores this (withoutDebug i) := by
  constructor
  · simp [breakAsked, withoutDebug]
  · intro cmd _
    simp [debugCmd, withoutDebug]

theorem ignores_of_run (h : this.debugState = .run) (other : i.debugI.cmd ≠ .break) :
    Ignores this i := by
  refine ⟨?_, fun cmd _ => debugCmd_eq_false this i cmd (by simp [h])⟩
  simp [breakAsked, other]

theorem ignores_of_ready (h : this.debugState = .ready) (cmd : i.debugI.cmd = .break) :
    Ignores this i := by
  refine ⟨by simp [breakAsked, h], fun other hne => ?_⟩
  simp only [debugCmd, cmd, Bool.and_eq_false_iff]
  exact .inr (beq_eq_false_iff_ne.mpr fun h => hne h.symm)

variable {this i}

theorem answered_of_ignores (h : Ignores this i) :
    answered this dec i =
      { answered this dec (withoutDebug i) with debugO := (answered this dec i).debugO } := by
  obtain ⟨hasked, hcmd⟩ := h
  obtain ⟨hasked', hcmd'⟩ := ignores_withoutDebug this i
  simp only [answered, shiftEnterDebug, holdPc, instDone, instAcked_dataDone, debugCmd_dataDone,
    hcmd _ (by decide : CpuDebugCmd.insert ≠ .break), hcmd _ (by decide : CpuDebugCmd.step ≠ .break),
    hcmd _ (by decide : CpuDebugCmd.continue ≠ .break),
    hcmd' _ (by decide : CpuDebugCmd.insert ≠ .break),
    hcmd' _ (by decide : CpuDebugCmd.step ≠ .break),
    hcmd' _ (by decide : CpuDebugCmd.continue ≠ .break)]
  simp only [dataDone, debugEntry, hasked, hasked']
  rfl

theorem settleState_of_ignores (h : Ignores this i) :
    settleState this dec i = settleState this dec (withoutDebug i) := by
  obtain ⟨hasked, hcmd⟩ := h
  obtain ⟨hasked', hcmd'⟩ := ignores_withoutDebug this i
  simp only [settleState, instDoneState, debugCmd_dataDone, debugEntryState, hasked, hasked',
    hcmd _ (by decide : CpuDebugCmd.insert ≠ .break), hcmd _ (by decide : CpuDebugCmd.step ≠ .break),
    hcmd _ (by decide : CpuDebugCmd.continue ≠ .break),
    hcmd' _ (by decide : CpuDebugCmd.insert ≠ .break),
    hcmd' _ (by decide : CpuDebugCmd.step ≠ .break),
    hcmd' _ (by decide : CpuDebugCmd.continue ≠ .break)]

theorem settle_of_ignores (h : Ignores this i) :
    settle this ctrl dec i =
      { settle this ctrl dec (withoutDebug i) with debugO := (settle this ctrl dec i).debugO } := by
  rw [settle, settle, answered_of_ignores dec h]
  rfl

/-- The rest of the process does not read the answer to the debugger. -/
theorem runSlot_debugO (debugO : CpuDebugO) (state : DebugState) :
    runSlot { this with debugO := debugO } state ctrl dec v =
      { runSlot this state ctrl dec v with debugO := debugO } := by
  simp only [runSlot, latchModes, updateSr, updatePc, newInstRequest, newDataRequest, instStarts,
    instPauses, dataStarts, ifAd]
  rfl

theorem debugAck_debugO (debugO : CpuDebugO) (state : DebugState) (i : DatapathI) :
    debugAck (nextPcInc { this with debugO := debugO }) state v i =
      { debugAck (nextPcInc this) state v (withoutDebug i) with
        debugO := (debugAck (nextPcInc { this with debugO := debugO }) state v i).debugO } := rfl

/-- A command that the state takes no notice of changes nothing but the answer
to the debugger. -/
theorem process_of_ignores (h : Ignores this i) :
    process this ctrl dec v i =
      { process this ctrl dec v (withoutDebug i) with
        debugO := (process this ctrl dec v i).debugO } := by
  have hslot : (settle this ctrl dec i).slot = (settle this ctrl dec (withoutDebug i)).slot := by
    rw [settle_of_ignores ctrl dec h]
  rw [process, process, settleState_of_ignores dec h, hslot]
  split_ifs
  · rw [settle_of_ignores ctrl dec h, runSlot_debugO]
    exact debugAck_debugO v _ _ i
  · rw [settle_of_ignores ctrl dec h]
    exact debugAck_debugO v _ _ i

end JCore.Datapath
