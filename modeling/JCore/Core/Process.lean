import JCore.Core.Datapath

/-!
# One clock of the data path

What `Datapath.process` does to the register record, with the phases of the
source worked out: the record after the answers of the buses and the debug
command, and from it the record after a clock that starts a slot and after one
that does not. Later modules use these equations and never unfold the process.

## Main definitions

* `Datapath.slotO`: whether a clock starts a slot
* `Datapath.dataReady`, `Datapath.instReady`: the words that a slot takes
* `Datapath.slotRequest`: the request for an instruction that a slot starts

## Main results

* `Datapath.answered_eq`, `Datapath.process_of_not_slot`, `Datapath.process_of_slot`
-/

namespace JCore.Datapath

variable (this : DatapathReg) (ctrl : StageCtrl) (dec : DecodeCtrl) (v : ProcessI) (i : DatapathI)

/-- A slot starts when both buses are free at the end of the clock and the CPU
is not held by the debugger. -/
def slotO : Bool :=
  !(this.dataO.en && !i.dbI.ack) && !(this.instO.en && !i.instI.ack) && this.debugState != .ready

/-- A debugger's request for an instruction. -/
def debugFetches : Bool := debugCmd this i .step || debugCmd this i .continue

theorem debugCmd_eq_false (cmd : CpuDebugCmd) (h : this.debugState ≠ .ready) :
    debugCmd this i cmd = false := by
  have : (this.debugState == .ready) = false := beq_eq_false_iff_ne.mpr h
  simp [debugCmd, this]

theorem dataAcked_debugEntry : dataAcked (debugEntry this dec i) i = dataAcked this i := rfl

theorem instAcked_dataDone : instAcked (dataDone (debugEntry this dec i) i) i = instAcked this i :=
  rfl

theorem debugCmd_dataDone {cmd : CpuDebugCmd} :
    debugCmd (dataDone (debugEntry this dec i) i) i cmd = debugCmd this i cmd := rfl

theorem answered_eq : answered this dec i =
    { this with
      dataO := if dataAcked this i then nullDataO else this.dataO
      mDrNext :=
        if dataAcked this i then alignReadData i.dbI.d this.dataO this.dataOSize else this.mDrNext
      mEn := dataAcked this i || this.mEn
      instO :=
        if instAcked this i then nullInstO
        else if debugFetches this i then toInstO dec.instr this.pc true
        else this.instO
      ifDrNext :=
        if instAcked this i then i.instI.d
        else if debugCmd this i .insert then i.debugI.ir
        else this.ifDrNext
      ifEn := instAcked this i || debugCmd this i .insert || this.ifEn
      pcInc := if debugCmd this i .insert || this.stopPcInc then this.pc else this.pcInc
      stopPcInc := debugCmd this i .insert || this.stopPcInc
      enterDebug := (answered this dec i).enterDebug
      oldDebug := dec.debug
      debugO := (answered this dec i).debugO
      ybusOverride2 := (answered this dec i).ybusOverride2 } := by
  simp only [answered, shiftEnterDebug, holdPc, instDone, instAcked_dataDone, debugCmd_dataDone]
  simp only [dataDone, dataAcked_debugEntry]
  simp only [debugEntry]
  rfl

theorem slotStarts_answered : slotStarts (answered this dec i) = slotO this i := by
  rw [answered_eq, slotStarts, debugFetches]
  by_cases hready : this.debugState = .ready
  · simp [slotO, hready]
  · simp only [debugCmd_eq_false this i _ hready, slotO, dataAcked, instAcked]
    by_cases hd : this.dataO.en <;> by_cases i.dbI.ack <;> by_cases hn : this.instO.en <;>
      by_cases i.instI.ack <;> simp [*, nullDataO, nullInstO]

/-- The word that a load ends with. -/
def dataWord : Option (BitVec 32) :=
  if dataAcked this i then some (alignReadData i.dbI.d this.dataO this.dataOSize) else none

/-- The instruction word that a fetch ends with or that the debugger inserts. -/
def instWord : Option (BitVec 16) :=
  if instAcked this i then some i.instI.d
  else if debugCmd this i .insert then some i.debugI.ir
  else none

/-- The word of a load that a slot takes, one of this clock or an earlier one. -/
def dataReady : Option (BitVec 32) :=
  (dataWord this i).or (if this.mEn then some this.mDrNext else none)

def instReady : Option (BitVec 16) :=
  (instWord this i).or (if this.ifEn then some this.ifDrNext else none)

theorem settle_eq_of_not_slot (h : slotO this i = false) :
    settle this ctrl dec i = { answered this dec i with slot := false } := by
  rw [settle, startSlot, slotStarts_answered, h]
  simp

theorem settle_eq_of_slot (h : slotO this i = true) :
    settle this ctrl dec i =
      { answered this dec i with
        mDr :=
          match dataReady this i with
          | some d => d
          | none => if ctrl.coproc.cpuDataMux != .dbus then i.copD else this.mDr
        mEn := false
        ifDr := (instReady this i).getD this.ifDr
        illegalDelaySlot :=
          match instReady this i with
          | some d => checkIllegalDelaySlot d
          | none => this.illegalDelaySlot
        illegalInstr :=
          match instReady this i with
          | some d => checkIllegalInstruction d
          | none => this.illegalInstr
        ifEn := false
        slot := true } := by
  rw [settle, startSlot, slotStarts_answered, h, answered_eq, dataReady, dataWord, instReady,
    instWord]
  by_cases hd : dataAcked this i <;> by_cases hi : instAcked this i <;>
    by_cases hc : debugCmd this i .insert <;> by_cases hm : this.mEn <;>
      by_cases hn : this.ifEn <;> simp [*]

/-- The address of the next instruction in sequence. -/
def heldPcInc : BitVec 32 := if this.stopPcInc then this.pc else this.pcInc

/-- The line in the execute stage drives the data bus. -/
def drivesData : Bool := ctrl.mem.issue || ctrl.coproc.coprocCmd == .lds

/-- The PC that a slot leaves behind. -/
def slotPc : BitVec 32 :=
  if ctrl.wrZ then v.zbus else if dec.inc then heldPcInc this else this.pc

/-- The instruction request that a slot starts for the decoder. -/
def slotRequest : Option CpuInstructionO :=
  if dec.instr.issue && (this.debugState == .run || this.debugState == .awaitBreak) then
    some (toInstO dec.instr (if dec.instr.addrSel then v.zbus else heldPcInc this) dec.instr.addrSel)
  else none

theorem not_ready_of_slot (h : slotO this i = true) : this.debugState ≠ .ready := by
  simp only [slotO, Bool.and_eq_true, bne_iff_ne] at h
  exact h.2

theorem process_of_not_slot (h : slotO this i = false) :
    process this ctrl dec v i =
      { answered this dec i with
        slot := false
        pcInc := this.pc + 2
        debugO := (process this ctrl dec v i).debugO
        stopPcInc := (process this ctrl dec v i).stopPcInc
        debugState := settleState this dec i } := by
  have idle : process this ctrl dec v i =
      debugAck (nextPcInc { answered this dec i with slot := false }) (settleState this dec i) v i := by
    rw [process, settle_eq_of_not_slot _ _ _ _ h]
    simp
  rw [idle, debugAck, nextPcInc, answered_eq]

theorem answered_en_of_slot (h : slotO this i = true) :
    (answered this dec i).dataO.en = false ∧ (answered this dec i).instO.en = false := by
  rw [← slotStarts_answered this dec, slotStarts, Bool.and_eq_true, Bool.and_eq_true,
    Bool.not_eq_true', Bool.not_eq_true'] at h
  exact h.1

theorem runSlot_eq (state : DebugState) (hd : this.dataO.en = false) (hi : this.instO.en = false) :
    runSlot this state ctrl dec v =
      { this with
        pc := if ctrl.wrZ then v.zbus else if dec.inc then this.pcInc else this.pc
        sr := nextSr ctrl v this.sr
        macS := if dec.sLatch then (nextSr ctrl v this.sr).s else this.macS
        dataOLock := ctrl.mem.lock
        dataOSize := if drivesData ctrl then ctrl.mem.size else this.dataOSize
        dataO :=
          if drivesData ctrl then toDataO ctrl.mem ctrl.coproc (maAd ctrl v) (maDw ctrl v)
          else this.dataO
        instO :=
          if dec.instr.issue && (this.debugState == .run || this.debugState == .awaitBreak) then
            toInstO dec.instr (ifAd this dec v) dec.instr.addrSel
          else this.instO
        ybusOverride0 := (runSlot this state ctrl dec v).ybusOverride0
        ybusOverride1 := (runSlot this state ctrl dec v).ybusOverride1
        ybusOverride2 := (runSlot this state ctrl dec v).ybusOverride2 } := by
  simp only [runSlot, latchModes, updateSr, updatePc, newInstRequest, newDataRequest, dataStarts,
    instStarts, ifAd, drivesData, hd, hi, Bool.not_false, Bool.and_true]
  rfl

theorem settle_en_of_slot (h : slotO this i = true) :
    (settle this ctrl dec i).dataO.en = false ∧ (settle this ctrl dec i).instO.en = false := by
  rw [settle_eq_of_slot _ _ _ _ h]
  exact answered_en_of_slot this dec i h

theorem process_of_slot (h : slotO this i = true) :
    process this ctrl dec v i =
      { process this ctrl dec v i with
        pc := slotPc this ctrl dec v
        sr := nextSr ctrl v this.sr
        macS := if dec.sLatch then (nextSr ctrl v this.sr).s else this.macS
        dataOLock := ctrl.mem.lock
        dataOSize := if drivesData ctrl then ctrl.mem.size else this.dataOSize
        dataO :=
          if drivesData ctrl then toDataO ctrl.mem ctrl.coproc (maAd ctrl v) (maDw ctrl v)
          else (answered this dec i).dataO
        instO := (slotRequest this dec v).getD (answered this dec i).instO
        pcInc := slotPc this ctrl dec v + 2
        mDr :=
          match dataReady this i with
          | some d => d
          | none => if ctrl.coproc.cpuDataMux != .dbus then i.copD else this.mDr
        mEn := false
        ifDr := (instReady this i).getD this.ifDr
        illegalDelaySlot :=
          match instReady this i with
          | some d => checkIllegalDelaySlot d
          | none => this.illegalDelaySlot
        illegalInstr :=
          match instReady this i with
          | some d => checkIllegalInstruction d
          | none => this.illegalInstr
        ifEn := false
        slot := true
        debugState := newInstRequestState this (settleState this dec i) dec } := by
  have hcmd := debugCmd_eq_false this i .insert (not_ready_of_slot this i h)
  -- at a slot nothing is outstanding, and no debug command is taken
  have hen := settle_en_of_slot this ctrl dec i h
  have hslot : (settle this ctrl dec i).slot = true := by rw [settle_eq_of_slot _ _ _ _ h]
  have hstate : newInstRequestState (settle this ctrl dec i) (settleState this dec i) dec =
      newInstRequestState this (settleState this dec i) dec := by
    rw [settle_eq_of_slot _ _ _ _ h, answered_eq, newInstRequestState, newInstRequestState,
      instPauses, instPauses]
  have run : process this ctrl dec v i =
      debugAck (nextPcInc (runSlot (settle this ctrl dec i) (settleState this dec i) ctrl dec v))
        (newInstRequestState this (settleState this dec i) dec) v i := by
    rw [process, if_pos hslot, hstate]
  rw [runSlot_eq _ _ _ _ _ hen.1 hen.2, settle_eq_of_slot _ _ _ _ h, answered_eq, nextPcInc,
    debugAck] at run
  rw [run, answered_eq]
  simp only [ifAd, slotPc, heldPcInc, slotRequest, hcmd, Bool.false_or, DatapathReg.mk.injEq,
    true_and, and_true]
  split <;> rfl

/-! ### The fields after a clock -/

theorem process_slot : (process this ctrl dec v i).slot = slotO this i := by
  cases h : slotO this i
  · rw [process_of_not_slot _ _ _ _ _ h]
  · rw [process_of_slot _ _ _ _ _ h]

theorem process_pc :
    (process this ctrl dec v i).pc = if slotO this i then slotPc this ctrl dec v else this.pc := by
  cases h : slotO this i
  · rw [process_of_not_slot _ _ _ _ _ h, answered_eq]
    rfl
  · rw [process_of_slot _ _ _ _ _ h]
    rfl

theorem process_pcInc : (process this ctrl dec v i).pcInc = (process this ctrl dec v i).pc + 2 := by
  rw [process_pc]
  cases h : slotO this i
  · rw [process_of_not_slot _ _ _ _ _ h]
    rfl
  · rw [process_of_slot _ _ _ _ _ h]
    rfl

theorem process_sr :
    (process this ctrl dec v i).sr = if slotO this i then nextSr ctrl v this.sr else this.sr := by
  cases h : slotO this i
  · rw [process_of_not_slot _ _ _ _ _ h, answered_eq]
    rfl
  · rw [process_of_slot _ _ _ _ _ h]
    rfl

theorem process_macS : (process this ctrl dec v i).macS =
    if slotO this i && dec.sLatch then (nextSr ctrl v this.sr).s else this.macS := by
  cases h : slotO this i
  · rw [process_of_not_slot _ _ _ _ _ h, answered_eq]
    rfl
  · rw [process_of_slot _ _ _ _ _ h]
    rfl

theorem process_dataOSize : (process this ctrl dec v i).dataOSize =
    if slotO this i && drivesData ctrl then ctrl.mem.size else this.dataOSize := by
  cases h : slotO this i
  · rw [process_of_not_slot _ _ _ _ _ h, answered_eq]
    rfl
  · rw [process_of_slot _ _ _ _ _ h]
    rfl

theorem process_dataOLock : (process this ctrl dec v i).dataOLock =
    if slotO this i then ctrl.mem.lock else this.dataOLock := by
  cases h : slotO this i
  · rw [process_of_not_slot _ _ _ _ _ h, answered_eq]
    rfl
  · rw [process_of_slot _ _ _ _ _ h]
    rfl

theorem process_dataO : (process this ctrl dec v i).dataO =
    if slotO this i && drivesData ctrl then
      toDataO ctrl.mem ctrl.coproc (maAd ctrl v) (maDw ctrl v)
    else if dataAcked this i then nullDataO
    else this.dataO := by
  cases h : slotO this i
  · rw [process_of_not_slot _ _ _ _ _ h, answered_eq]
    rfl
  · rw [process_of_slot _ _ _ _ _ h, answered_eq]
    rfl

theorem process_mEn :
    (process this ctrl dec v i).mEn = ((dataAcked this i || this.mEn) && !slotO this i) := by
  cases h : slotO this i
  · rw [process_of_not_slot _ _ _ _ _ h, answered_eq, Bool.not_false, Bool.and_true]
  · rw [process_of_slot _ _ _ _ _ h, Bool.not_true, Bool.and_false]

theorem process_mDr : (process this ctrl dec v i).mDr =
    if slotO this i then
      match dataReady this i with
      | some d => d
      | none => if ctrl.coproc.cpuDataMux != .dbus then i.copD else this.mDr
    else this.mDr := by
  cases h : slotO this i
  · rw [process_of_not_slot _ _ _ _ _ h, answered_eq]
    rfl
  · rw [process_of_slot _ _ _ _ _ h]
    rfl

theorem process_instO : (process this ctrl dec v i).instO =
    ((if slotO this i then slotRequest this dec v else none).getD
      (if instAcked this i then nullInstO
      else if debugFetches this i then toInstO dec.instr this.pc true
      else this.instO)) := by
  cases h : slotO this i
  · rw [process_of_not_slot _ _ _ _ _ h, answered_eq]
    rfl
  · rw [process_of_slot _ _ _ _ _ h, answered_eq]
    rfl

theorem process_ifEn : (process this ctrl dec v i).ifEn =
    ((instAcked this i || debugCmd this i .insert || this.ifEn) && !slotO this i) := by
  cases h : slotO this i
  · rw [process_of_not_slot _ _ _ _ _ h, answered_eq, Bool.not_false, Bool.and_true]
  · rw [process_of_slot _ _ _ _ _ h, Bool.not_true, Bool.and_false]

theorem process_ifDr : (process this ctrl dec v i).ifDr =
    if slotO this i then (instReady this i).getD this.ifDr else this.ifDr := by
  cases h : slotO this i
  · rw [process_of_not_slot _ _ _ _ _ h, answered_eq]
    rfl
  · rw [process_of_slot _ _ _ _ _ h]
    rfl

theorem process_illegalDelaySlot : (process this ctrl dec v i).illegalDelaySlot =
    match if slotO this i then instReady this i else none with
    | some d => checkIllegalDelaySlot d
    | none => this.illegalDelaySlot := by
  cases h : slotO this i
  · rw [process_of_not_slot _ _ _ _ _ h, answered_eq]
    rfl
  · rw [process_of_slot _ _ _ _ _ h]
    rfl

theorem process_illegalInstr : (process this ctrl dec v i).illegalInstr =
    match if slotO this i then instReady this i else none with
    | some d => checkIllegalInstruction d
    | none => this.illegalInstr := by
  cases h : slotO this i
  · rw [process_of_not_slot _ _ _ _ _ h, answered_eq]
    rfl
  · rw [process_of_slot _ _ _ _ _ h]
    rfl

theorem debugAck_stopPcInc (state : DebugState) (h : state = .run) :
    (debugAck this state v i).stopPcInc = false := by
  simp [debugAck, h]

theorem debugAck_debugState (state : DebugState) : (debugAck this state v i).debugState = state := by
  rw [debugAck]

theorem process_stopPcInc_of_run (h : (process this ctrl dec v i).debugState = .run) :
    (process this ctrl dec v i).stopPcInc = false := by
  rw [process] at h ⊢
  split_ifs at h ⊢ with hslot
  · rw [debugAck_debugState] at h
    exact debugAck_stopPcInc _ v i _ h
  · rw [debugAck_debugState] at h
    exact debugAck_stopPcInc _ v i _ h

theorem runSlot_ybusOverride0 (state : DebugState) (h : this.debugState = .run) :
    (runSlot this state ctrl dec v).ybusOverride0 = this.ybusOverride0 := by
  have hpause : ∀ dataO size,
      instPauses { this with dataO := dataO, dataOSize := size } state dec = false := by
    intro dataO size
    simp [instPauses, h]
  simp only [runSlot, latchModes, updateSr, updatePc, newInstRequest, newDataRequest, hpause,
    Bool.false_eq_true, if_false]

/-- Outside of debug mode the values for the Y bus stay. -/
theorem process_ybusOverride0_of_run (h : this.debugState = .run) :
    (process this ctrl dec v i).ybusOverride0 = this.ybusOverride0 := by
  have hsettle : (settle this ctrl dec i).ybusOverride0 = this.ybusOverride0 := by
    rw [settle, startSlot, answered_eq]
  have hstate : (settle this ctrl dec i).debugState = .run := by
    rw [settle, startSlot, answered_eq]
    exact h
  rw [process]
  split_ifs
  · simp only [debugAck, nextPcInc]
    rw [runSlot_ybusOverride0 _ _ _ _ _ hstate, hsettle]
  · simp only [debugAck, nextPcInc]
    exact hsettle

theorem process_debugState : (process this ctrl dec v i).debugState =
    if slotO this i then newInstRequestState this (settleState this dec i) dec
    else settleState this dec i := by
  cases h : slotO this i
  · rw [process_of_not_slot _ _ _ _ _ h]
    rfl
  · rw [process_of_slot _ _ _ _ _ h]
    rfl

/-- The words that the two next registers hold on to matter only until the slot. -/
theorem process_mDrNext_of_not_slot (h : slotO this i = false) :
    (process this ctrl dec v i).mDrNext = (dataWord this i).getD this.mDrNext := by
  rw [process_of_not_slot _ _ _ _ _ h, answered_eq, dataWord]
  split_ifs <;> rfl

theorem process_ifDrNext_of_not_slot (h : slotO this i = false) :
    (process this ctrl dec v i).ifDrNext = (instWord this i).getD this.ifDrNext := by
  rw [process_of_not_slot _ _ _ _ _ h, answered_eq, instWord]
  split_ifs <;> rfl

end JCore.Datapath
