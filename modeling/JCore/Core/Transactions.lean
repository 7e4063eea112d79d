import JCore.Core.Process
import JCore.Lib.Buffer

/-!
# Bus transactions

Each bus of the data path passes through two places that hold one item: the
outstanding request, and the word read that waits for the slot. Every event on
a bus puts an item into one of them or takes one out. Debug commands use the
same places, to fetch an instruction on leaving debug mode and to insert one;
they come only while the CPU is ready, when both places of the instruction bus
are empty.

## Main definitions

* `Datapath.dataRequest`, `Datapath.instRequest`: the requests started in a clock
* `Datapath.Quiet`: the invariant on the two places of each bus
* `Datapath.ExactlyOnce`: what the transactions of a bus keep to over a run

## Main results

* `Datapath.Quiet.process`: every clock keeps the invariant
* `Datapath.transactions_exactly_once`: the transactions of a run
-/

namespace JCore.Datapath

section Clock

variable (this : DatapathReg) (ctrl : StageCtrl) (dec : DecodeCtrl) (v : ProcessI) (i : DatapathI)

/-! ### The places of a bus -/

/-- The request that the data bus presents. -/
def dataOutstanding : Option CpuDataO := if this.dataO.en then some this.dataO else none

def instOutstanding : Option CpuInstructionO := if this.instO.en then some this.instO else none

/-- The request that the memory answers in a clock. -/
def dataEnded : Option CpuDataO := if dataAcked this i then some this.dataO else none

def instEnded : Option CpuInstructionO := if instAcked this i then some this.instO else none

/-- The data request that a clock starts. -/
def dataRequest : Option CpuDataO :=
  if slotO this i && ctrl.mem.issue then
    some (toDataO ctrl.mem ctrl.coproc (maAd ctrl v) (maDw ctrl v))
  else none

/-- The instruction request that a clock starts, for the decoder in a slot or for
the debugger. -/
def instRequest : Option CpuInstructionO :=
  if slotO this i then slotRequest this dec v
  else if debugFetches this i && dec.instr.issue then some (toInstO dec.instr this.pc true)
  else none

/-- The word read that waits for a slot. -/
def dataWaiting : Option (BitVec 32) := if this.mEn then some this.mDrNext else none

def instWaiting : Option (BitVec 16) := if this.ifEn then some this.ifDrNext else none

/-- The word that a slot moves to `mDr`. -/
def dataMoved : Option (BitVec 32) := if slotO this i then dataReady this i else none

/-- The word that a slot moves to `ifDr`. -/
def instMoved : Option (BitVec 16) := if slotO this i then instReady this i else none

/-! ### The invariant -/

/-- No word waits while a request is outstanding, and the CPU is ready for debug
commands only when both places of the instruction bus are empty. -/
structure Quiet : Prop where
  data : this.mEn = true → this.dataO.en = false
  inst : this.ifEn = true → this.instO.en = false
  ready : this.debugState = .ready → this.instO.en = false ∧ this.ifEn = false

variable {this}

theorem en_toDataO {mem : MemCtrl} {coproc : CoprocCtrl} {addr data : BitVec 32} :
    (toDataO mem coproc addr data).en = mem.issue := by
  rw [toDataO]
  cases h : mem.issue
  · by_cases hlds : coproc.coprocCmd = .lds <;> simp [hlds, nullDataO]
  · cases mem.wr <;> cases mem.size <;> rfl

theorem wr_toDataO {mem : MemCtrl} {coproc : CoprocCtrl} {addr data : BitVec 32}
    (issue : mem.issue = true) : (toDataO mem coproc addr data).wr = mem.wr := by
  rw [toDataO, if_pos issue]
  cases mem.wr <;> cases mem.size <;> rfl

theorem en_toInstO {instr : InstrCtrl} {addr : BitVec 32} {jp : Bool} :
    (toInstO instr addr jp).en = instr.issue := by
  rw [toInstO]
  cases h : instr.issue <;> rfl

/-- The CPU stays ready only if no command takes it out of debug mode. -/
theorem settleState_ready (h : settleState this dec i = .ready) :
    this.debugState = .ready ∧ debugCmd this i .insert = false ∧ debugFetches this i = false := by
  rw [settleState, instDoneState, debugCmd_dataDone, debugCmd_dataDone, debugCmd_dataDone] at h
  rw [debugFetches]
  cases hins : debugCmd this i .insert <;> cases hstep : debugCmd this i .step <;>
    cases hcont : debugCmd this i .continue <;> simp [hins, hstep, hcont] at h
  rw [debugEntryState] at h
  split_ifs at h
  exact ⟨h, rfl, rfl⟩

/-- A slot that pauses the CPU starts no request for an instruction. -/
theorem slotRequest_eq_none_of_ready (hready : this.debugState ≠ .ready)
    (h : newInstRequestState this (settleState this dec i) dec = .ready) :
    slotRequest this dec v = none := by
  rw [newInstRequestState] at h
  split_ifs at h with hpause
  · simp only [instPauses, Bool.and_eq_true, Bool.not_eq_true'] at hpause
    rw [slotRequest, hpause.1.2, Bool.and_false, if_neg Bool.false_ne_true]
  · exact absurd (settleState_ready dec i h).1 hready

/-- Outside of the ready state nothing but the slot touches the place of the
next instruction word, and there a debug command finds both places empty. -/
theorem Quiet.process (q : Quiet this) : Quiet (process this ctrl dec v i) := by
  obtain ⟨hdata, hinst, hready⟩ := q
  refine ⟨?_, ?_, fun hnext => ?_⟩
  · rw [process_mEn, process_dataO]
    cases slotO this i <;> by_cases ha : dataAcked this i <;> simp_all [nullDataO]
  · rw [process_ifEn, process_instO]
    cases slotO this i
    · by_cases hr : this.debugState = .ready
      · have hcmd : debugCmd this i .insert = true → debugFetches this i = false := by
          cases hc : i.debugI.cmd <;> simp [debugCmd, debugFetches, hc]
        by_cases ha : instAcked this i <;> by_cases hc : debugCmd this i .insert <;>
          simp_all [nullInstO]
      · have hcmd : debugFetches this i = false := by
          simp [debugFetches, debugCmd_eq_false this i _ hr]
        by_cases ha : instAcked this i <;> simp_all [debugCmd_eq_false this i _ hr, nullInstO]
    · simp
  · rw [process_debugState] at hnext
    rw [process_instO, process_ifEn]
    cases h : slotO this i <;> rw [h] at hnext
    · obtain ⟨hr, hins, hfetch⟩ := settleState_ready dec i hnext
      have hack : instAcked this i = false := by rw [instAcked, (hready hr).1, Bool.false_and]
      simp [hack, hins, hfetch, hready hr]
    · have hnone := slotRequest_eq_none_of_ready dec v i (not_ready_of_slot this i h) hnext
      have hen := (answered_en_of_slot this dec i h).2
      rw [answered_eq] at hen
      simpa [hnone] using hen

/-! ### What a clock does to the places -/

/-- A slot starts only when the requests have come to their end. -/
theorem ended_of_slot (h : slotO this i = true) :
    dataEnded this i = dataOutstanding this ∧ instEnded this i = instOutstanding this := by
  simp only [slotO, Bool.and_eq_true, Bool.not_eq_true'] at h
  simp only [dataEnded, dataOutstanding, dataAcked, instEnded, instOutstanding, instAcked]
  by_cases hd : this.dataO.en <;> by_cases hi : this.instO.en <;> simp_all

theorem dataOutstanding_step :
    (dataOutstanding this).toList ++ (dataRequest this ctrl v i).toList =
      (dataEnded this i).toList ++ (dataOutstanding (process this ctrl dec v i)).toList := by
  cases h : slotO this i
  · rw [dataRequest, h, dataOutstanding, dataOutstanding, process_dataO, h, dataEnded]
    by_cases hen : this.dataO.en <;> by_cases ha : i.dbI.ack <;>
      simp [dataAcked, nullDataO, hen, ha]
  · have hen := (answered_en_of_slot this dec i h).1
    rw [answered_eq] at hen
    rw [(ended_of_slot i h).1, dataRequest, h, Bool.true_and, List.append_cancel_left_eq,
      dataOutstanding, process_dataO, h, Bool.true_and]
    cases hissue : ctrl.mem.issue
    · split_ifs <;> simp_all [en_toDataO]
    · simp [drivesData, hissue, en_toDataO]

theorem instOutstanding_step (q : Quiet this) :
    (instOutstanding this).toList ++ (instRequest this dec v i).toList =
      (instEnded this i).toList ++ (instOutstanding (process this ctrl dec v i)).toList := by
  cases h : slotO this i
  · rw [instRequest, h, instOutstanding, instOutstanding, process_instO, h, instEnded]
    by_cases hf : debugFetches this i
    · have hready : this.debugState = .ready := by
        by_contra hne
        simp [debugFetches, debugCmd_eq_false this i _ hne] at hf
      cases hissue : dec.instr.issue <;>
        simp [instAcked, (q.ready hready).1, hf, en_toInstO, hissue]
    · by_cases hen : this.instO.en <;> by_cases ha : i.instI.ack <;>
        simp [instAcked, nullInstO, hen, ha, hf]
  · have hen := (answered_en_of_slot this dec i h).2
    rw [answered_eq] at hen
    rw [(ended_of_slot i h).2, instRequest, h, if_pos rfl, List.append_cancel_left_eq,
      instOutstanding, process_instO, h, if_pos rfl, slotRequest]
    split_ifs with hissue <;> simp_all [en_toInstO]

theorem dataWaiting_step (q : Quiet this) :
    (dataWaiting this).toList ++ (dataWord this i).toList =
      (dataMoved this i).toList ++ (dataWaiting (process this ctrl dec v i)).toList := by
  have apart : this.mEn = true → dataAcked this i = false := fun hen => by
    rw [dataAcked, q.data hen, Bool.false_and]
  cases h : slotO this i
  · rw [dataMoved, h, dataWaiting, dataWaiting, process_mEn, process_mDrNext_of_not_slot _ _ _ _ _ h,
      h, dataWord]
    cases hen : this.mEn <;> by_cases ha : dataAcked this i <;> simp_all
  · rw [dataMoved, h, if_pos rfl, dataReady, dataWaiting, dataWaiting, process_mEn, h, dataWord]
    cases hen : this.mEn <;> by_cases ha : dataAcked this i <;> simp_all

theorem instWaiting_step (q : Quiet this) :
    (instWaiting this).toList ++ (instWord this i).toList =
      (instMoved this i).toList ++ (instWaiting (process this ctrl dec v i)).toList := by
  have apart : this.ifEn = true → instAcked this i = false ∧ debugCmd this i .insert = false := by
    intro hen
    have hrun : this.debugState ≠ .ready := fun hr => by simp [(q.ready hr).2] at hen
    exact ⟨by rw [instAcked, q.inst hen, Bool.false_and], debugCmd_eq_false this i _ hrun⟩
  cases h : slotO this i
  · rw [instMoved, h, instWaiting, instWaiting, process_ifEn, process_ifDrNext_of_not_slot _ _ _ _ _ h,
      h, instWord]
    cases hen : this.ifEn <;> by_cases ha : instAcked this i <;>
      by_cases hc : debugCmd this i .insert <;> simp_all
  · rw [instMoved, h, if_pos rfl, instReady, instWaiting, instWaiting, process_ifEn, h, instWord]
    cases hen : this.ifEn <;> by_cases ha : instAcked this i <;>
      by_cases hc : debugCmd this i .insert <;> simp_all

/-- A slot leaves no word waiting. -/
theorem waiting_of_slot (h : slotO this i = true) :
    dataWaiting (process this ctrl dec v i) = none ∧ instWaiting (process this ctrl dec v i) = none := by
  rw [dataWaiting, instWaiting, process_mEn, process_ifEn, h]
  simp

/-- What is moved to `mDr` is there in the next clock, and nothing but a word
from the coprocessor comes there otherwise. -/
theorem process_mDr_eq_moved : (process this ctrl dec v i).mDr =
    (dataMoved this i).getD
      (if slotO this i && ctrl.coproc.cpuDataMux != .dbus then i.copD else this.mDr) := by
  rw [process_mDr, dataMoved]
  cases slotO this i <;> cases dataReady this i <;> simp

theorem process_ifDr_eq_moved :
    (process this ctrl dec v i).ifDr = (instMoved this i).getD this.ifDr := by
  rw [process_ifDr, instMoved]
  cases slotO this i <;> simp

end Clock

/-! ### Runs -/

/-- What the transactions of a bus keep to: a request is presented unchanged up
to its answer, is then withdrawn or replaced by the request started in that
clock, and none is started before; the requests answered are those started, in
order, and the words moved are those read, in order. -/
structure ExactlyOnce {ρ ω : Type} (outstanding started ended : ℕ → Option ρ)
    (read waiting moved : ℕ → Option ω) : Prop where
  presented : ∀ t r, outstanding t = some r → ended t = none →
    outstanding (t + 1) = some r ∧ started t = none
  withdrawn : ∀ t r, ended t = some r → outstanding t = some r ∧ outstanding (t + 1) = started t
  issued : ∀ t, outstanding t = none → outstanding (t + 1) = started t
  requests : ∀ t, history started t = history ended t ++ (outstanding t).toList
  words : ∀ t, history read t = history moved t ++ (waiting t).toList

theorem ExactlyOnce.of_places {ρ ω : Type} {outstanding started ended : ℕ → Option ρ}
    {read waiting moved : ℕ → Option ω} (bus : OnePlace outstanding started ended)
    (reg : OnePlace waiting read moved) (own : ∀ t r, ended t = some r → outstanding t = some r) :
    ExactlyOnce outstanding started ended read waiting moved where
  presented _ _ hr hend := bus.stays hr hend
  withdrawn t r hend := ⟨own t r hend, (bus.leaves (own t r hend) hend).2⟩
  issued t hnone := by
    refine bus.fills hnone ?_
    cases hend : ended t with
    | none => rfl
    | some r => exact absurd (own t r hend) (by simp [hnone])
  requests := bus.history_put
  words := reg.history_put

section Run

variable (regs : RegisterFile 5 21 32) (clk : ℕ → ClockI)

theorem quiet_datapathReset : Quiet datapathReset := by constructor <;> simp [datapathReset]

theorem quiet_run (t : ℕ) : Quiet (run (reset regs) clk t).this :=
  trace_invariant (P := fun s : State => Quiet s.this) quiet_datapathReset
    (fun n s q => q.process (clk n).ctrl (clk n).dec (processI s (clk n).ctrl (clk n).i) (clk n).i) t

theorem run_succ (t : ℕ) : (run (reset regs) clk (t + 1)).this =
    process (run (reset regs) clk t).this (clk t).ctrl (clk t).dec
      (processI (run (reset regs) clk t) (clk t).ctrl (clk t).i) (clk t).i := rfl

/-- On the data bus. -/
def DataExactlyOnce : Prop :=
  ExactlyOnce (fun t => dataOutstanding (run (reset regs) clk t).this)
    (fun t =>
      dataRequest (run (reset regs) clk t).this (clk t).ctrl
        (processI (run (reset regs) clk t) (clk t).ctrl (clk t).i) (clk t).i)
    (fun t => dataEnded (run (reset regs) clk t).this (clk t).i)
    (fun t => dataWord (run (reset regs) clk t).this (clk t).i)
    (fun t => dataWaiting (run (reset regs) clk t).this)
    (fun t => dataMoved (run (reset regs) clk t).this (clk t).i)

/-- On the instruction bus. -/
def InstExactlyOnce : Prop :=
  ExactlyOnce (fun t => instOutstanding (run (reset regs) clk t).this)
    (fun t =>
      instRequest (run (reset regs) clk t).this (clk t).dec
        (processI (run (reset regs) clk t) (clk t).ctrl (clk t).i) (clk t).i)
    (fun t => instEnded (run (reset regs) clk t).this (clk t).i)
    (fun t => instWord (run (reset regs) clk t).this (clk t).i)
    (fun t => instWaiting (run (reset regs) clk t).this)
    (fun t => instMoved (run (reset regs) clk t).this (clk t).i)

/-- The words moved come into the two data registers in the slot, no word waits
beyond it, and without one the registers keep what they hold, but for a word
from the coprocessor. -/
def MovedAtSlots : Prop :=
  ∀ t,
    (slotO (run (reset regs) clk t).this (clk t).i = true →
      dataWaiting (run (reset regs) clk (t + 1)).this = none ∧
        instWaiting (run (reset regs) clk (t + 1)).this = none) ∧
    (run (reset regs) clk (t + 1)).this.mDr =
      (dataMoved (run (reset regs) clk t).this (clk t).i).getD
        (if slotO (run (reset regs) clk t).this (clk t).i && (clk t).ctrl.coproc.cpuDataMux != .dbus then
          (clk t).i.copD
        else (run (reset regs) clk t).this.mDr) ∧
    (run (reset regs) clk (t + 1)).this.ifDr =
      (instMoved (run (reset regs) clk t).this (clk t).i).getD (run (reset regs) clk t).this.ifDr

theorem dataExactlyOnce : DataExactlyOnce regs clk := by
  refine ExactlyOnce.of_places ⟨rfl, fun t => ?_⟩ ⟨rfl, fun t => ?_⟩ fun t r hend => ?_
  · rw [run_succ]
    exact dataOutstanding_step _ _ _ _
  · rw [run_succ]
    exact dataWaiting_step _ _ _ _ (quiet_run regs clk t)
  · simp only [dataEnded, dataAcked, dataOutstanding] at hend ⊢
    split_ifs at hend ⊢ <;> simp_all

theorem instExactlyOnce : InstExactlyOnce regs clk := by
  refine ExactlyOnce.of_places ⟨rfl, fun t => ?_⟩ ⟨rfl, fun t => ?_⟩ fun t r hend => ?_
  · rw [run_succ]
    exact instOutstanding_step _ _ _ _ (quiet_run regs clk t)
  · rw [run_succ]
    exact instWaiting_step _ _ _ _ (quiet_run regs clk t)
  · simp only [instEnded, instAcked, instOutstanding] at hend ⊢
    split_ifs at hend ⊢ <;> simp_all

/-- For every control, acknowledge timing and debug command, every transaction of
the two buses happens exactly once. -/
theorem transactions_exactly_once :
    DataExactlyOnce regs clk ∧ InstExactlyOnce regs clk ∧ MovedAtSlots regs clk := by
  refine ⟨dataExactlyOnce regs clk, instExactlyOnce regs clk, fun t => ?_⟩
  rw [run_succ]
  exact ⟨waiting_of_slot _ _ _ _, process_mDr_eq_moved _ _ _ _, process_ifDr_eq_moved _ _ _ _⟩

end Run

end JCore.Datapath
