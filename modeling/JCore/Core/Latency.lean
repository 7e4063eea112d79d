import JCore.Core.Transactions
import JCore.Decode.Pipeline

/-!
# Latency

How long a bus takes to answer does not matter: a run of the data path is the
run in which every request is answered in the next clock, with clocks inserted
in which nothing happens but that an answer arrives and waits for the slot.

## Main definitions

* `Datapath.zeroWait`: one clock in which both buses answer
* `Datapath.Stretched`: a state is one of the run without waiting, but for the
  answers that have not arrived
* `Datapath.Driven`: a run with given controls and answers

## Main results

* `Datapath.Stretched.wait`, `Datapath.Stretched.slot`: what one clock does
* `Datapath.stretched_run`: every run is the run without waiting, stretched
* `Datapath.latency_insensitive`: two runs that differ in their waits
-/

namespace JCore.Datapath

/-! ### Without waiting -/

/-- No debug command. -/
def noDebug : CpuDebugI := { en := false, cmd := .break, ir := 0, d := 0, dEn := false }

/-- The controls of a slot, and what it gets from the multiplier. -/
structure SlotI where
  ctrl : StageCtrl
  dec : DecodeCtrl
  mach : BitVec 32
  macl : BitVec 32
  deriving DecidableEq, Repr

/-- The inputs of a clock in which both buses answer. -/
def answers (u : SlotI) (d : BitVec 32) (w : BitVec 16) : DatapathI :=
  { dbI := { d := d, ack := true }, instI := { d := w, ack := true }, debugI := noDebug,
    copD := 0, mach := u.mach, macl := u.macl }

/-- One clock in which both buses answer, without debugging. -/
def zeroWait (x : State) (u : SlotI) (d : BitVec 32) (w : BitVec 16) : State :=
  step x u.ctrl { u.dec with debug := false } (answers u d w)

/-! ### With waiting -/

/-- The place of a bus is the same in both states, or its answer has arrived in
the second. -/
def DataLate (d : BitVec 32) (x s : DatapathReg) : Prop :=
  (s.dataO = x.dataO ∧ s.mEn = x.mEn ∧ (x.mEn = true → s.mDrNext = x.mDrNext)) ∨
    (x.dataO.en = true ∧ s.dataO = nullDataO ∧ s.mEn = true ∧
      s.mDrNext = alignReadData d x.dataO x.dataOSize)

def InstLate (w : BitVec 16) (x s : DatapathReg) : Prop :=
  (s.instO = x.instO ∧ s.ifEn = x.ifEn ∧ (x.ifEn = true → s.ifDrNext = x.ifDrNext)) ∨
    (x.instO.en = true ∧ s.instO = nullInstO ∧ s.ifEn = true ∧ s.ifDrNext = w)

/-- The second state is the first but for the answers `d` and `w`, which may have
arrived there. -/
structure Stretched (d : BitVec 32) (w : BitVec 16) (x s : State) : Prop where
  regs : s.regs = x.regs
  pc : s.this.pc = x.this.pc
  sr : s.this.sr = x.this.sr
  macS : s.this.macS = x.this.macS
  ifDr : s.this.ifDr = x.this.ifDr
  illegalDelaySlot : s.this.illegalDelaySlot = x.this.illegalDelaySlot
  illegalInstr : s.this.illegalInstr = x.this.illegalInstr
  mDr : s.this.mDr = x.this.mDr
  ybusOverride0 : s.this.ybusOverride0 = x.this.ybusOverride0
  dataOSize : s.this.dataOSize = x.this.dataOSize
  pcInc : s.this.pcInc = x.this.pcInc
  stopPcInc : s.this.stopPcInc = false ∧ x.this.stopPcInc = false
  run : s.this.debugState = .run ∧ x.this.debugState = .run
  /-- only at the start can the address of the next instruction be another one, and then
  nothing is awaited -/
  inSequence : x.this.pcInc = x.this.pc + 2 ∨
    (x.this.dataO.en = false ∧ x.this.instO.en = false)
  data : DataLate d x.this s.this
  inst : InstLate w x.this s.this

section Clock

variable {d : BitVec 32} {w : BitVec 16} {x s : State} {ctrl : StageCtrl} {dec : DecodeCtrl}
  {i j : DatapathI}

/-! #### The combinational logic does not see the places of the buses -/

theorem Stretched.xbus (h : Stretched d w x s) : xbus s.this x.regs ctrl = xbus x.this x.regs ctrl := by
  simp only [Datapath.xbus, regX, wbPipe, wbus, h.pc, h.mDr]

theorem Stretched.ybus (h : Stretched d w x s) (mach : i.mach = j.mach) (macl : i.macl = j.macl) :
    ybus s.this x.regs ctrl i = ybus x.this x.regs ctrl j := by
  simp only [Datapath.ybus, ybusTemp, regY, wbPipe, wbus, h.pc, h.sr, h.mDr,
    h.ybusOverride0, mach, macl]

theorem Stretched.aluinx (h : Stretched d w x s) :
    aluinx s.this x.regs ctrl = aluinx x.this x.regs ctrl := by
  simp only [Datapath.aluinx, h.xbus, h.sr]

theorem Stretched.aluiny (h : Stretched d w x s) (mach : i.mach = j.mach) (macl : i.macl = j.macl) :
    aluiny s.this x.regs ctrl i = aluiny x.this x.regs ctrl j := by
  simp only [Datapath.aluiny, reg0, wbPipe, wbus, h.ybus mach macl, h.mDr]

theorem Stretched.arithOut (h : Stretched d w x s) (mach : i.mach = j.mach)
    (macl : i.macl = j.macl) :
    arithOut s.this x.regs ctrl i = arithOut x.this x.regs ctrl j := by
  simp only [Datapath.arithOut, arithFunc, h.aluinx, h.aluiny mach macl, h.sr]

theorem Stretched.zbus (h : Stretched d w x s) (mach : i.mach = j.mach) (macl : i.macl = j.macl) :
    zbus s.this x.regs ctrl i = zbus x.this x.regs ctrl j := by
  simp only [Datapath.zbus, logicOut, wbus, h.xbus, h.ybus mach macl, h.aluinx,
    h.aluiny mach macl, h.arithOut mach macl, h.sr, h.mDr]

theorem Stretched.processI (h : Stretched d w x s) (mach : i.mach = j.mach)
    (macl : i.macl = j.macl) : processI s ctrl i = processI x ctrl j := by
  simp only [Datapath.processI, logicOut, arithFunc, sfto, wbus, h.xbus, h.ybus mach macl,
    h.aluinx, h.aluiny mach macl, h.arithOut mach macl, h.zbus mach macl, h.regs, h.sr, h.mDr]

/-! #### The clocks -/

/-- The state is ready for a slot, and its answers are the given ones. -/
structure Answered (d : BitVec 32) (w : BitVec 16) (s : DatapathReg) (i : DatapathI) : Prop where
  data : dataAcked s i = true → i.dbI.d = d
  inst : instAcked s i = true → i.instI.d = w

theorem slotO_of_run (h : s.this.debugState = .run) :
    slotO s.this i = (!(s.this.dataO.en && !i.dbI.ack) && !(s.this.instO.en && !i.instI.ack)) := by
  simp [slotO, h]

theorem debugCmd_of_run (h : s.this.debugState = .run) (cmd : CpuDebugCmd) :
    debugCmd s.this i cmd = false := debugCmd_eq_false s.this i _ (by simp [h])

theorem debugFetches_of_run (h : s.this.debugState = .run) : debugFetches s.this i = false := by
  simp [debugFetches, debugCmd_of_run h]

/-- A clock without a slot at most lets an answer arrive. -/
theorem Stretched.wait (h : Stretched d w x s) (hslot : slotO s.this i = false)
    (hans : Answered d w s.this i) (hrun : (step s ctrl dec i).this.debugState = .run) :
    Stretched d w x (step s ctrl dec i) := by
  have hthis : (step s ctrl dec i).this = process s.this ctrl dec (Datapath.processI s ctrl i) i := rfl
  have hfetch : debugFetches s.this i = false := debugFetches_of_run h.run.1
  rw [hthis] at hrun
  constructor
  case regs =>
    rw [← h.regs, step, combinatorial, process_slot, hslot]
    rfl
  case run => exact ⟨hrun, h.run.2⟩
  case stopPcInc => exact ⟨process_stopPcInc_of_run _ _ _ _ _ hrun, h.stopPcInc.2⟩
  case inSequence => exact h.inSequence
  case pcInc =>
    -- a clock without a slot awaits an answer, so this is not the first one
    have busy : ¬(x.this.dataO.en = false ∧ x.this.instO.en = false) := by
      rintro ⟨hd, hi⟩
      have hds : s.this.dataO.en = false := by
        rcases h.data with hl | hl <;> simp [hl.1, hl.2.1, hd, nullDataO]
      have his : s.this.instO.en = false := by
        rcases h.inst with hl | hl <;> simp [hl.1, hl.2.1, hi, nullInstO]
      rw [slotO_of_run h.run.1, hds, his] at hslot
      simp at hslot
    rw [hthis, process_pcInc, process_pc, hslot, h.inSequence.resolve_right busy, ← h.pc]
    rfl
  case data =>
    rw [DataLate, hthis, process_dataO, process_mEn, process_mDrNext_of_not_slot _ _ _ _ _ hslot,
      hslot, dataWord]
    by_cases hack : dataAcked s.this i
    · -- the answer arrives
      have hen : s.this.dataO.en = true := by
        rw [dataAcked, Bool.and_eq_true] at hack
        exact hack.1
      rcases h.data with ⟨ho, -, -⟩ | ⟨-, ho, -⟩
      · refine Or.inr ⟨ho ▸ hen, ?_⟩
        simp [hack, hans.data hack, ho, h.dataOSize]
      · simp [ho, nullDataO] at hen
    · simpa [hack, DataLate] using h.data
  case inst =>
    rw [InstLate, hthis, process_instO, process_ifEn, process_ifDrNext_of_not_slot _ _ _ _ _ hslot,
      hslot, instWord, hfetch, debugCmd_of_run h.run.1]
    by_cases hack : instAcked s.this i
    -- the instruction arrives
    · have hen : s.this.instO.en = true := by
        rw [instAcked, Bool.and_eq_true] at hack
        exact hack.1
      rcases h.inst with ⟨ho, -, -⟩ | ⟨-, ho, -⟩
      · refine Or.inr ⟨ho ▸ hen, ?_⟩
        simp [hack, hans.inst hack]
      · simp [ho, nullInstO] at hen
    · simpa [hack, InstLate] using h.inst
  case pc => rw [hthis, process_pc, hslot]; exact h.pc
  case sr => rw [hthis, process_sr, hslot]; exact h.sr
  case macS => rw [hthis, process_macS, hslot]; exact h.macS
  case ifDr => rw [hthis, process_ifDr, hslot]; exact h.ifDr
  case illegalDelaySlot => rw [hthis, process_illegalDelaySlot, hslot]; exact h.illegalDelaySlot
  case illegalInstr => rw [hthis, process_illegalInstr, hslot]; exact h.illegalInstr
  case mDr => rw [hthis, process_mDr, hslot]; exact h.mDr
  case ybusOverride0 =>
    rw [hthis, process_ybusOverride0_of_run _ _ _ _ _ h.run.1]; exact h.ybusOverride0
  case dataOSize => rw [hthis, process_dataOSize, hslot]; exact h.dataOSize

/-- The words that a slot takes are the same, whether an answer has waited or
comes in this clock. -/
theorem Stretched.dataReady (h : Stretched d w x s) (hslot : slotO s.this i = true)
    (hans : Answered d w s.this i) {u : SlotI} :
    dataReady s.this i = dataReady x.this (answers u d w) := by
  rw [slotO_of_run h.run.1, Bool.and_eq_true, Bool.not_eq_true', Bool.not_eq_true'] at hslot
  have hd := hans.data
  simp only [Datapath.dataReady, dataWord, dataAcked, answers, Bool.and_true] at hd ⊢
  rcases h.data with ⟨ho, hen, hnext⟩ | ⟨hx, ho, hen, hnext⟩
  · by_cases hx : x.this.dataO.en
    · have hack : i.dbI.ack = true := by simpa [ho, hx] using hslot.1
      simp [ho, hx, hack, hd (by simp [ho, hx, hack]), h.dataOSize]
    · by_cases hm : x.this.mEn <;> simp [ho, hx, hen, hm, hnext]
  · simp [ho, hx, hen, hnext, nullDataO]

theorem Stretched.instReady (h : Stretched d w x s) (hslot : slotO s.this i = true)
    (hans : Answered d w s.this i) {u : SlotI} :
    instReady s.this i = instReady x.this (answers u d w) := by
  rw [slotO_of_run h.run.1, Bool.and_eq_true, Bool.not_eq_true', Bool.not_eq_true'] at hslot
  have hi := hans.inst
  simp only [Datapath.instReady, instWord, instAcked, debugCmd_of_run h.run.1,
    debugCmd_of_run h.run.2, answers, Bool.and_true] at hi ⊢
  rcases h.inst with ⟨ho, hen, hnext⟩ | ⟨hx, ho, hen, hnext⟩
  · by_cases hx : x.this.instO.en
    · have hack : i.instI.ack = true := by simpa [ho, hx] using hslot.2
      simp [ho, hx, hack, hi (by simp [ho, hx, hack])]
    · by_cases hm : x.this.ifEn <;> simp [ho, hx, hen, hm, hnext]
  · simp [ho, hx, hen, hnext, nullInstO]

/-- What a slot finds on a bus from which nothing is outstanding any more. -/
theorem Stretched.dataFree (h : Stretched d w x s) (hslot : slotO s.this i = true) {u : SlotI} :
    (if dataAcked s.this i then nullDataO else s.this.dataO) =
      if dataAcked x.this (answers u d w) then nullDataO else x.this.dataO := by
  rw [slotO_of_run h.run.1, Bool.and_eq_true, Bool.not_eq_true', Bool.not_eq_true'] at hslot
  simp only [dataAcked, answers, Bool.and_true]
  rcases h.data with ⟨ho, -, -⟩ | ⟨hx, ho, -, -⟩
  · by_cases hx : x.this.dataO.en
    · have hack : i.dbI.ack = true := by simpa [ho, hx] using hslot.1
      simp [ho, hx, hack]
    · simp [ho, hx]
  · simp [ho, hx]

theorem Stretched.instFree (h : Stretched d w x s) (hslot : slotO s.this i = true) {u : SlotI} :
    (if instAcked s.this i then nullInstO else s.this.instO) =
      if instAcked x.this (answers u d w) then nullInstO else x.this.instO := by
  rw [slotO_of_run h.run.1, Bool.and_eq_true, Bool.not_eq_true', Bool.not_eq_true'] at hslot
  simp only [instAcked, answers, Bool.and_true]
  rcases h.inst with ⟨ho, -, -⟩ | ⟨hx, ho, -, -⟩
  · by_cases hx : x.this.instO.en
    · have hack : i.instI.ack = true := by simpa [ho, hx] using hslot.2
      simp [ho, hx, hack]
    · simp [ho, hx]
  · simp [ho, hx]

theorem slotO_answers (h : x.this.debugState = .run) (u : SlotI) :
    slotO x.this (answers u d w) = true := by
  rw [slotO_of_run h]
  simp [answers]

theorem settleState_of_run (h : x.this.debugState = .run) (noBreak : breakRan x.this dec = false)
    (noCmd : i.debugI.en = false) : settleState x.this dec i = .run := by
  rw [settleState, instDoneState, debugCmd_dataDone, debugCmd_dataDone, debugCmd_dataDone,
    debugCmd_of_run h, debugCmd_of_run h, debugCmd_of_run h, debugEntryState, noBreak, breakAsked,
    noCmd]
  simp [h]

theorem zeroWait_run (h : x.this.debugState = .run) (u : SlotI) :
    (zeroWait x u d w).this.debugState = .run := by
  have hstate : settleState x.this { u.dec with debug := false } (answers u d w) = .run :=
    settleState_of_run h (by simp [breakRan]) rfl
  have hthis : (zeroWait x u d w).this = process x.this u.ctrl { u.dec with debug := false }
    (Datapath.processI x u.ctrl (answers u d w)) (answers u d w) := rfl
  rw [hthis, process_debugState, slotO_answers h, hstate, newInstRequestState, instPauses, h]
  simp

theorem Stretched.slotRequest (h : Stretched d w x s) (v : ProcessI) (debug : Bool) :
    slotRequest s.this dec v = slotRequest x.this { dec with debug := debug } v := by
  simp only [Datapath.slotRequest, heldPcInc, h.run.1, h.run.2, h.pcInc, h.stopPcInc.1,
    h.stopPcInc.2, Bool.false_eq_true, if_false]

theorem this_zeroWait (x : State) (u : SlotI) (d : BitVec 32) (w : BitVec 16) :
    (zeroWait x u d w).this = process x.this u.ctrl { u.dec with debug := false }
      (Datapath.processI x u.ctrl (answers u d w)) (answers u d w) := rfl

section Slot

variable {u : SlotI} (h : Stretched d w x s) (hslot : slotO s.this i = true) (mach : i.mach = u.mach)
  (macl : i.macl = u.macl)

include h mach macl

theorem Stretched.this_step : (step s u.ctrl u.dec i).this =
    process s.this u.ctrl u.dec (Datapath.processI x u.ctrl (answers u d w)) i := by
  have hv : Datapath.processI s u.ctrl i = Datapath.processI x u.ctrl (answers u d w) :=
    h.processI mach macl
  rw [← hv]
  rfl

include hslot

/-- After a slot both buses present the same requests. -/
theorem Stretched.dataO_slot :
    (step s u.ctrl u.dec i).this.dataO = (zeroWait x u d w).this.dataO := by
  rw [h.this_step mach macl, this_zeroWait, process_dataO, process_dataO, hslot,
    slotO_answers h.run.2, h.dataFree hslot]

theorem Stretched.instO_slot :
    (step s u.ctrl u.dec i).this.instO = (zeroWait x u d w).this.instO := by
  rw [h.this_step mach macl, this_zeroWait, process_instO, process_instO, hslot,
    slotO_answers h.run.2, h.slotRequest _ false, debugFetches_of_run h.run.1,
    debugFetches_of_run h.run.2]
  simp only [Bool.false_eq_true, if_false]
  rw [h.instFree hslot]

/-- A slot starts the same requests. -/
theorem Stretched.dataRequest_slot : dataRequest s.this u.ctrl (Datapath.processI s u.ctrl i) i =
    dataRequest x.this u.ctrl (Datapath.processI x u.ctrl (answers u d w)) (answers u d w) := by
  rw [dataRequest, dataRequest, hslot, slotO_answers h.run.2,
    h.processI (j := answers u d w) mach macl]

theorem Stretched.instRequest_slot :
    instRequest s.this u.dec (Datapath.processI s u.ctrl i) i =
      instRequest x.this { u.dec with debug := false }
        (Datapath.processI x u.ctrl (answers u d w)) (answers u d w) := by
  rw [instRequest, instRequest, hslot, slotO_answers h.run.2, if_pos rfl, if_pos rfl,
    h.processI (j := answers u d w) mach macl, h.slotRequest _ false]

theorem Stretched.pc_slot : (step s u.ctrl u.dec i).this.pc = (zeroWait x u d w).this.pc := by
  rw [h.this_step mach macl, this_zeroWait, process_pc, process_pc, hslot, slotO_answers h.run.2]
  simp only [slotPc, heldPcInc, h.pc, h.pcInc, h.stopPcInc.1, h.stopPcInc.2]

/-- A slot is a clock of the run without waiting, and then nothing is late. -/
theorem Stretched.slot (hans : Answered d w s.this i) (mux : u.ctrl.coproc.cpuDataMux = .dbus)
    (hrun : (step s u.ctrl u.dec i).this.debugState = .run) (d' : BitVec 32) (w' : BitVec 16) :
    Stretched d' w' (zeroWait x u d w) (step s u.ctrl u.dec i) := by
  have hthis := h.this_step mach macl
  -- the run without wait states gets both answers in its only clock
  have hthisx := this_zeroWait x u d w
  have hslotx := slotO_answers (d := d) (w := w) h.run.2 u
  have hpcx : (zeroWait x u d w).this.pcInc = (zeroWait x u d w).this.pc + 2 := by
    rw [hthisx, process_pcInc]
  have hrunx := zeroWait_run (d := d) (w := w) h.run.2 u
  constructor
  case pc => exact h.pc_slot hslot mach macl
  case run => exact ⟨hrun, hrunx⟩
  case inSequence => exact Or.inl hpcx
  case pcInc => rw [hpcx, ← h.pc_slot hslot mach macl, hthis, process_pcInc]
  case regs =>
    have hz : Datapath.zbus s.this x.regs u.ctrl i =
        Datapath.zbus x.this x.regs u.ctrl (answers u d w) := h.zbus mach macl
    rw [zeroWait, step, step, combinatorial, combinatorial, process_slot, process_slot, hslot,
      hslotx]
    simp only [gpfZwd, exPipe0, wbPipe, wbus, h.regs, h.pc, h.mDr, hz]
  case sr => rw [hthis, hthisx, process_sr, process_sr, hslot, hslotx, h.sr]
  case macS => rw [hthis, hthisx, process_macS, process_macS, hslot, hslotx, h.sr, h.macS]
  -- the words taken over in the slot are those of the answers
  case ifDr =>
    rw [hthis, hthisx, process_ifDr, process_ifDr, hslot, hslotx, h.instReady hslot hans, h.ifDr]
  case illegalDelaySlot =>
    rw [hthis, hthisx, process_illegalDelaySlot, process_illegalDelaySlot, hslot, hslotx,
      h.instReady hslot hans, h.illegalDelaySlot]
  case illegalInstr =>
    rw [hthis, hthisx, process_illegalInstr, process_illegalInstr, hslot, hslotx,
      h.instReady hslot hans, h.illegalInstr]
  case mDr =>
    rw [hthis, hthisx, process_mDr, process_mDr, hslot, hslotx, h.dataReady hslot hans, h.mDr, mux]
    rfl
  case ybusOverride0 =>
    rw [hthis, hthisx, process_ybusOverride0_of_run _ _ _ _ _ h.run.1,
      process_ybusOverride0_of_run _ _ _ _ _ h.run.2, h.ybusOverride0]
  case dataOSize =>
    rw [hthis, hthisx, process_dataOSize, process_dataOSize, hslot, hslotx, h.dataOSize]
  case stopPcInc =>
    exact ⟨process_stopPcInc_of_run _ _ _ _ _ hrun, process_stopPcInc_of_run _ _ _ _ _ hrunx⟩
  -- after the slot both ask the same again
  case data =>
    refine Or.inl ⟨h.dataO_slot hslot mach macl, ?_, ?_⟩
    · rw [hthis, hthisx, process_mEn, process_mEn, hslot, hslotx, Bool.not_true, Bool.and_false,
        Bool.and_false]
    · rw [hthisx, process_mEn, hslotx]
      simp
  case inst =>
    refine Or.inl ⟨h.instO_slot hslot mach macl, ?_, ?_⟩
    · rw [hthis, hthisx, process_ifEn, process_ifEn, hslot, hslotx, Bool.not_true, Bool.and_false,
        Bool.and_false]
    · rw [hthisx, process_ifEn, hslotx]
      simp

end Slot

end Clock

/-! ### Runs -/

section Counts

variable (s : State) (clk : ℕ → ClockI) (t : ℕ)

/-- How many slots start in the first `t` clocks. -/
def slotCount : ℕ := Nat.count (fun k => slotO (run s clk k).this (clk k).i = true) t

/-- How many data requests are answered in the first `t` clocks. -/
def dataCount : ℕ := Nat.count (fun k => dataAcked (run s clk k).this (clk k).i = true) t

/-- How many instruction requests are answered in the first `t` clocks. -/
def instCount : ℕ := Nat.count (fun k => instAcked (run s clk k).this (clk k).i = true) t

/-- The data requests started in the first `t` clocks. -/
def dataRequests : List CpuDataO :=
  history (fun k => dataRequest (run s clk k).this (clk k).ctrl
    (processI (run s clk k) (clk k).ctrl (clk k).i) (clk k).i) t

/-- The instruction requests started in the first `t` clocks. -/
def instRequests : List CpuInstructionO :=
  history (fun k => instRequest (run s clk k).this (clk k).dec
    (processI (run s clk k) (clk k).ctrl (clk k).i) (clk k).i) t

end Counts

/-- A run outside of debug mode with the controls `u` of its slots, in which the
buses answer their requests with `data` and `inst` in turn, in any clock. -/
structure Driven (u : ℕ → SlotI) (data : ℕ → BitVec 32) (inst : ℕ → BitVec 16) (s : State)
    (clk : ℕ → ClockI) : Prop where
  ctrl : ∀ t, (clk t).ctrl = (u (slotCount s clk t)).ctrl
  dec : ∀ t, (clk t).dec = (u (slotCount s clk t)).dec
  mach : ∀ t, (clk t).i.mach = (u (slotCount s clk t)).mach
  macl : ∀ t, (clk t).i.macl = (u (slotCount s clk t)).macl
  data : ∀ t, dataAcked (run s clk t).this (clk t).i = true →
    (clk t).i.dbI.d = data (dataCount s clk t)
  inst : ∀ t, instAcked (run s clk t).this (clk t).i = true →
    (clk t).i.instI.d = inst (instCount s clk t)
  run : ∀ t, (run s clk t).this.debugState = .run

section Ideal

variable (u : ℕ → SlotI) (data : ℕ → BitVec 32) (inst : ℕ → BitVec 16) (s : State)

/-- The run without waiting, with the numbers of the requests answered. -/
structure Ideal where
  core : State
  dataCount : ℕ
  instCount : ℕ

def Ideal.step (x : Ideal) (u : SlotI) : Ideal :=
  { core := zeroWait x.core u (data x.dataCount) (inst x.instCount)
    dataCount := x.dataCount + x.core.this.dataO.en.toNat
    instCount := x.instCount + x.core.this.instO.en.toNat }

/-- The state before slot `n`. -/
def ideal : ℕ → Ideal := trace (Ideal.step data inst) { core := s, dataCount := 0, instCount := 0 } u

/-- The inputs of slot `n`. -/
def idealI (n : ℕ) : DatapathI :=
  answers (u n) (data (ideal u data inst s n).dataCount) (inst (ideal u data inst s n).instCount)

def idealDataRequest (n : ℕ) : Option CpuDataO :=
  dataRequest (ideal u data inst s n).core.this (u n).ctrl
    (processI (ideal u data inst s n).core (u n).ctrl (idealI u data inst s n))
    (idealI u data inst s n)

def idealInstRequest (n : ℕ) : Option CpuInstructionO :=
  instRequest (ideal u data inst s n).core.this { (u n).dec with debug := false }
    (processI (ideal u data inst s n).core (u n).ctrl (idealI u data inst s n))
    (idealI u data inst s n)

end Ideal

section Run

variable {u : ℕ → SlotI} {data : ℕ → BitVec 32} {inst : ℕ → BitVec 16} {s : State}
  {clk : ℕ → ClockI}

/-- What every state that the data path can reach has. -/
structure Settled (s : State) : Prop where
  inSequence : s.this.pcInc = s.this.pc + 2 ∨ (s.this.dataO.en = false ∧ s.this.instO.en = false)
  stopPcInc : s.this.debugState = .run → s.this.stopPcInc = false

theorem settled_reset (regs : RegisterFile 5 21 32) : Settled (reset regs) :=
  ⟨Or.inr ⟨rfl, rfl⟩, fun _ => rfl⟩

theorem settled_step (s : State) (ctrl : StageCtrl) (dec : DecodeCtrl) (i : DatapathI) :
    Settled (step s ctrl dec i) :=
  ⟨Or.inl (process_pcInc _ _ _ _ _), process_stopPcInc_of_run _ _ _ _ _⟩

theorem settled_run (regs : RegisterFile 5 21 32) (clk : ℕ → ClockI) (t : ℕ) :
    Settled (run (reset regs) clk t) :=
  trace_invariant (settled_reset regs)
    (fun n s _ => settled_step s (clk n).ctrl (clk n).dec (clk n).i) t

theorem run_succ' (t : ℕ) :
    run s clk (t + 1) = step (run s clk t) (clk t).ctrl (clk t).dec (clk t).i := rfl

/-- One for a bus whose answer has come and waits for the slot. -/
def late (x s : Bool) : ℕ := (x && !s).toNat

theorem late_self (b : Bool) : late b b = 0 := by
  cases b <;> rfl

/-- An answer counts as late until the slot. -/
theorem late_answer {x s : Bool} (ack : Bool) (h : s = true → x = true) :
    late x s + (s && ack).toNat = late x (s && !ack) := by
  cases x <;> cases s <;> cases ack <;> simp_all [late]

theorem late_slot {x s : Bool} (h : s = true → x = true) : late x s + s.toNat = x.toNat := by
  cases x <;> cases s <;> simp_all [late]

/-- What is outstanding with waiting is outstanding without. -/
theorem Stretched.en_of_en {d : BitVec 32} {w : BitVec 16} {x s : State} (h : Stretched d w x s) :
    (s.this.dataO.en = true → x.this.dataO.en = true) ∧
      (s.this.instO.en = true → x.this.instO.en = true) := by
  constructor
  · intro hs
    rcases h.data with hl | hl
    · exact hl.1 ▸ hs
    · exact hl.1
  · intro hs
    rcases h.inst with hl | hl
    · exact hl.1 ▸ hs
    · exact hl.1

/-- Without a slot a request is outstanding until its answer. -/
theorem en_of_not_slot {s : State} {ctrl : StageCtrl} {dec : DecodeCtrl} {i : DatapathI}
    (hslot : slotO s.this i = false) (hrun : s.this.debugState = .run) :
    (step s ctrl dec i).this.dataO.en = (s.this.dataO.en && !i.dbI.ack) ∧
      (step s ctrl dec i).this.instO.en = (s.this.instO.en && !i.instI.ack) := by
  have hthis : (step s ctrl dec i).this = process s.this ctrl dec (processI s ctrl i) i := rfl
  rw [hthis, process_dataO, process_instO, hslot, debugFetches_of_run hrun, dataAcked, instAcked]
  by_cases hd : s.this.dataO.en <;> by_cases ha : i.dbI.ack <;> by_cases hi : s.this.instO.en <;>
    by_cases hb : i.instI.ack <;> simp [hd, ha, hi, hb, nullDataO, nullInstO]

/-- A slot starts when what is outstanding is answered. -/
theorem acked_of_slot {s : DatapathReg} {i : DatapathI} (hslot : slotO s i = true) :
    dataAcked s i = s.dataO.en ∧ instAcked s i = s.instO.en := by
  simp only [slotO, Bool.and_eq_true, Bool.not_eq_true'] at hslot
  rw [dataAcked, instAcked]
  by_cases hd : s.dataO.en <;> by_cases hi : s.instO.en <;> simp_all

/-- The state in clock `t` is that of the run without waiting, stretched, and the
requests answered are as many but for answers that wait. -/
structure Follows (u : ℕ → SlotI) (data : ℕ → BitVec 32) (inst : ℕ → BitVec 16) (s : State)
    (clk : ℕ → ClockI) (t : ℕ) (x : Ideal) : Prop where
  stretched : Stretched (data x.dataCount) (inst x.instCount) x.core (run s clk t)
  dataCount : dataCount s clk t =
    x.dataCount + late x.core.this.dataO.en (run s clk t).this.dataO.en
  instCount : instCount s clk t =
    x.instCount + late x.core.this.instO.en (run s clk t).this.instO.en

theorem dataCount_succ (t : ℕ) : dataCount s clk (t + 1) =
    dataCount s clk t + (dataAcked (run s clk t).this (clk t).i).toNat := by
  rw [Datapath.dataCount, Datapath.dataCount, Nat.count_succ]
  cases dataAcked (run s clk t).this (clk t).i <;> rfl

theorem instCount_succ (t : ℕ) : instCount s clk (t + 1) =
    instCount s clk t + (instAcked (run s clk t).this (clk t).i).toNat := by
  rw [Datapath.instCount, Datapath.instCount, Nat.count_succ]
  cases instAcked (run s clk t).this (clk t).i <;> rfl

theorem slotCount_succ (t : ℕ) : slotCount s clk (t + 1) =
    slotCount s clk t + (slotO (run s clk t).this (clk t).i).toNat := by
  rw [slotCount, slotCount, Nat.count_succ]
  cases slotO (run s clk t).this (clk t).i <;> rfl

variable {t : ℕ} {x : Ideal}

/-- An answer belongs to the request that is outstanding in both runs. -/
theorem Follows.answered (h : Follows u data inst s clk t x) (driven : Driven u data inst s clk) :
    Answered (data x.dataCount) (inst x.instCount) (run s clk t).this (clk t).i where
  data hack := by
    have hen : (run s clk t).this.dataO.en = true := by
      rw [dataAcked, Bool.and_eq_true] at hack
      exact hack.1
    rw [driven.data t hack, h.dataCount, hen, late, Bool.not_true, Bool.and_false]
    rfl
  inst hack := by
    have hen : (run s clk t).this.instO.en = true := by
      rw [instAcked, Bool.and_eq_true] at hack
      exact hack.1
    rw [driven.inst t hack, h.instCount, hen, late, Bool.not_true, Bool.and_false]
    rfl

theorem Follows.wait (h : Follows u data inst s clk t x) (driven : Driven u data inst s clk)
    (hslot : slotO (run s clk t).this (clk t).i = false) :
    Follows u data inst s clk (t + 1) x := by
  have hans := h.answered driven
  constructor
  · rw [run_succ']
    exact h.stretched.wait hslot hans (driven.run (t + 1))
  · rw [dataCount_succ, h.dataCount, run_succ', (en_of_not_slot hslot (driven.run t)).1, dataAcked,
      Nat.add_assoc, late_answer _ h.stretched.en_of_en.1]
  · rw [instCount_succ, h.instCount, run_succ', (en_of_not_slot hslot (driven.run t)).2, instAcked,
      Nat.add_assoc, late_answer _ h.stretched.en_of_en.2]

theorem Follows.slot (h : Follows u data inst s clk t x) (driven : Driven u data inst s clk)
    (mux : ∀ n, (u n).ctrl.coproc.cpuDataMux = .dbus)
    (hslot : slotO (run s clk t).this (clk t).i = true) :
    Follows u data inst s clk (t + 1) (x.step data inst (u (slotCount s clk t))) := by
  have hans := h.answered driven
  constructor
  · rw [run_succ', driven.ctrl, driven.dec]
    refine h.stretched.slot hslot (driven.mach t) (driven.macl t) hans (mux _) ?_ _ _
    rw [← driven.ctrl, ← driven.dec]
    exact driven.run (t + 1)
  · have hfree := h.stretched.dataO_slot hslot (driven.mach t) (driven.macl t)
    rw [← driven.ctrl, ← driven.dec, ← run_succ'] at hfree
    rw [dataCount_succ, h.dataCount, hfree, (acked_of_slot hslot).1, Nat.add_assoc,
      late_slot h.stretched.en_of_en.1]
    exact (congrArg (_ + ·) (late_self _)).symm
  · have hfree := h.stretched.instO_slot hslot (driven.mach t) (driven.macl t)
    rw [← driven.ctrl, ← driven.dec, ← run_succ'] at hfree
    rw [instCount_succ, h.instCount, hfree, (acked_of_slot hslot).2, Nat.add_assoc,
      late_slot h.stretched.en_of_en.2]
    exact (congrArg (_ + ·) (late_self _)).symm

/-- Every run is the run without waiting, stretched. -/
theorem follows_run (settled : Settled s) (driven : Driven u data inst s clk)
    (mux : ∀ n, (u n).ctrl.coproc.cpuDataMux = .dbus) (t : ℕ) :
    Follows u data inst s clk t (ideal u data inst s (slotCount s clk t)) := by
  induction t with
  | zero =>
    have hrun : s.this.debugState = .run := driven.run 0
    have hstop := settled.stopPcInc hrun
    have hcount : slotCount s clk 0 = 0 := Nat.count_zero _
    rw [hcount]
    refine ⟨⟨rfl, rfl, rfl, rfl, rfl, rfl, rfl, rfl, rfl, rfl, rfl, ⟨hstop, hstop⟩, ⟨hrun, hrun⟩,
      settled.inSequence, Or.inl ⟨rfl, rfl, fun _ => rfl⟩, Or.inl ⟨rfl, rfl, fun _ => rfl⟩⟩, ?_, ?_⟩
    · show Nat.count _ 0 = 0 + late s.this.dataO.en s.this.dataO.en
      simp [late]
    · show Nat.count _ 0 = 0 + late s.this.instO.en s.this.instO.en
      simp [late]
  | succ t ih =>
    rw [slotCount_succ]
    cases hslot : slotO (run s clk t).this (clk t).i
    · exact ih.wait driven hslot
    · exact ih.slot driven mux hslot

/-! #### Requests -/

theorem dataRequest_of_not_slot {s : DatapathReg} {i : DatapathI} (ctrl : StageCtrl) (v : ProcessI)
    (hslot : slotO s i = false) : dataRequest s ctrl v i = none := by
  rw [dataRequest, hslot]
  rfl

theorem instRequest_of_not_slot {s : State} {i : DatapathI} (dec : DecodeCtrl) (v : ProcessI)
    (hslot : slotO s.this i = false) (hrun : s.this.debugState = .run) :
    instRequest s.this dec v i = none := by
  rw [instRequest, hslot, debugFetches_of_run hrun]
  rfl

/-- The data requests are those of the run without waiting, slot by slot. -/
theorem dataRequests_eq (settled : Settled s) (driven : Driven u data inst s clk)
    (mux : ∀ n, (u n).ctrl.coproc.cpuDataMux = .dbus) (t : ℕ) :
    dataRequests s clk t = history (idealDataRequest u data inst s) (slotCount s clk t) := by
  induction t with
  | zero => rfl
  | succ t ih =>
    rw [slotCount_succ, dataRequests, history_succ, ← dataRequests, ih]
    rcases hslot : slotO (run s clk t).this (clk t).i with _ | _
    · rw [dataRequest_of_not_slot _ _ hslot]
      simp
    · have h := (follows_run settled driven mux t).stretched
      rw [Bool.toNat_true, history_succ, idealDataRequest, driven.ctrl,
        h.dataRequest_slot hslot (driven.mach t) (driven.macl t)]
      rfl

/-- The instruction requests are those of the run without waiting. -/
theorem instRequests_eq (settled : Settled s) (driven : Driven u data inst s clk)
    (mux : ∀ n, (u n).ctrl.coproc.cpuDataMux = .dbus) (t : ℕ) :
    instRequests s clk t = history (idealInstRequest u data inst s) (slotCount s clk t) := by
  induction t with
  | zero => rfl
  | succ t ih =>
    rw [slotCount_succ, instRequests, history_succ, ← instRequests, ih]
    rcases hslot : slotO (run s clk t).this (clk t).i with _ | _
    · rw [instRequest_of_not_slot _ _ hslot (driven.run t)]
      simp
    · have h := (follows_run settled driven mux t).stretched
      rw [Bool.toNat_true, history_succ, idealInstRequest, driven.ctrl, driven.dec,
        h.instRequest_slot hslot (driven.mach t) (driven.macl t)]
      rfl

/-! #### Two runs -/

/-- What two states have in common for the program. -/
structure SameView (s s' : State) : Prop where
  pc : s.this.pc = s'.this.pc
  sr : s.this.sr = s'.this.sr
  regs : s.regs = s'.regs
  ifDr : s.this.ifDr = s'.this.ifDr
  mDr : s.this.mDr = s'.this.mDr
  illegalDelaySlot : s.this.illegalDelaySlot = s'.this.illegalDelaySlot
  illegalInstr : s.this.illegalInstr = s'.this.illegalInstr
  macS : s.this.macS = s'.this.macS

/-- Two states that follow one have all of it in common. -/
theorem Stretched.sameView {d : BitVec 32} {w : BitVec 16} {x s s' : State}
    (h : Stretched d w x s) (h' : Stretched d w x s') : SameView s s' where
  pc := h.pc.trans h'.pc.symm
  sr := h.sr.trans h'.sr.symm
  regs := h.regs.trans h'.regs.symm
  ifDr := h.ifDr.trans h'.ifDr.symm
  mDr := h.mDr.trans h'.mDr.symm
  illegalDelaySlot := h.illegalDelaySlot.trans h'.illegalDelaySlot.symm
  illegalInstr := h.illegalInstr.trans h'.illegalInstr.symm
  macS := h.macS.trans h'.macS.symm

/-- From a state that the data path reaches, two runs with the same controls and
answers agree whenever they have had the same number of slots, however long
each bus takes in each of them. -/
theorem latency_insensitive (regs : RegisterFile 5 21 32) (before : ℕ → ClockI) (start : ℕ)
    {clk' : ℕ → ClockI} (mux : ∀ n, (u n).ctrl.coproc.cpuDataMux = .dbus)
    (driven : Driven u data inst (run (reset regs) before start) clk)
    (driven' : Driven u data inst (run (reset regs) before start) clk') (t t' : ℕ)
    (slots : slotCount (run (reset regs) before start) clk t =
      slotCount (run (reset regs) before start) clk' t') :
    SameView (run (run (reset regs) before start) clk t)
        (run (run (reset regs) before start) clk' t') ∧
      dataRequests (run (reset regs) before start) clk t =
        dataRequests (run (reset regs) before start) clk' t' ∧
      instRequests (run (reset regs) before start) clk t =
        instRequests (run (reset regs) before start) clk' t' := by
  have settled := settled_run regs before start
  refine ⟨?_, ?_, ?_⟩
  · have h := (follows_run settled driven mux t).stretched
    rw [slots] at h
    exact h.sameView (follows_run settled driven' mux t').stretched
  · rw [dataRequests_eq settled driven mux, dataRequests_eq settled driven' mux, slots]
  · rw [instRequests_eq settled driven mux, instRequests_eq settled driven' mux, slots]

/-- Without debug commands and lines that enter debug mode the run stays outside. -/
theorem run_of_noDebug (start : s.this.debugState = .run) (line : ∀ t, (clk t).dec.debug = false)
    (cmd : ∀ t, (clk t).i.debugI.en = false) (t : ℕ) : (run s clk t).this.debugState = .run := by
  induction t with
  | zero => exact start
  | succ t ih =>
    have hthis : (run s clk (t + 1)).this = process (run s clk t).this (clk t).ctrl (clk t).dec
      (processI (run s clk t) (clk t).ctrl (clk t).i) (clk t).i := rfl
    have hstate : settleState (run s clk t).this (clk t).dec (clk t).i = .run :=
      settleState_of_run ih (by simp [breakRan, line]) (cmd t)
    rw [hthis, process_debugState, hstate, newInstRequestState, instPauses, ih]
    simp

end Run

/-! ### An example -/

/-- The controls of a fetch in the first slot and of nothing afterwards. -/
def oneFetch (n : ℕ) : SlotI where
  ctrl :=
    { reg := pipelineReset.reg, func := pipelineReset.func, sr := pipelineReset.sr 0,
      mem := pipelineReset.mem, buses := pipelineReset.buses, coproc := pipelineReset.coproc,
      wrZ := false, wrpr := false }
  dec :=
    { debug := false, instr := { issue := n == 0, addrSel := false }, inc := n == 0, sLatch := false }
  mach := 0
  macl := 0

/-- The clocks of that program; the fetch is answered after some clocks. -/
def oneFetchAfter (wait t : ℕ) : ClockI where
  ctrl := (oneFetch t).ctrl
  dec := (oneFetch t).dec
  i :=
    { dbI := { d := 0, ack := false }, instI := { d := 9, ack := t == wait + 1 },
      debugI := noDebug, copD := 0, mach := 0, macl := 0 }

/-- The state after reset, with cleared memory blocks. -/
def clearedState : State := reset (RegisterFile.reset (fun _ => 0) fun _ => 0)

theorem driven_oneFetchAfter (wait : ℕ) :
    Driven oneFetch (fun _ => 0) (fun _ => 9) clearedState (oneFetchAfter wait) where
  ctrl _ := rfl
  dec t := by
    -- the first clock is a slot
    have first : slotCount clearedState (oneFetchAfter wait) 1 = 1 := rfl
    cases t with
    | zero => rfl
    | succ t =>
      have hpos : 1 ≤ slotCount clearedState (oneFetchAfter wait) (t + 1) :=
        first ▸ Nat.count_monotone _ (Nat.le_add_left 1 t)
      have hne : (slotCount clearedState (oneFetchAfter wait) (t + 1) == 0) = false := by
        simpa using Nat.ne_of_gt hpos
      simp [oneFetchAfter, oneFetch, hne]
  mach _ := rfl
  macl _ := rfl
  data _ _ := rfl
  inst _ _ := rfl
  run := run_of_noDebug rfl (fun _ => rfl) fun _ => rfl

theorem latency_insensitive_oneFetch :
    SameView (run clearedState (oneFetchAfter 0) 2) (run clearedState (oneFetchAfter 2) 4) ∧
      dataRequests clearedState (oneFetchAfter 0) 2 = dataRequests clearedState (oneFetchAfter 2) 4 ∧
      instRequests clearedState (oneFetchAfter 0) 2 = instRequests clearedState (oneFetchAfter 2) 4 :=
  latency_insensitive (RegisterFile.reset (fun _ => 0) fun _ => 0) (oneFetchAfter 0) 0 (fun _ => rfl)
    (driven_oneFetchAfter 0) (driven_oneFetchAfter 2) 2 4 (by decide)

end JCore.Datapath
