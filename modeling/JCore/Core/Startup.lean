import JCore.Core.Closed
import JCore.Core.ControlFlow
import JCore.Core.Latency

/-!
# From the reset on

After the reset the decoder carries out six lines of microcode that no instruction
starts. They read two words of the data memory: the one at address 0 becomes PC, the
other one the stack pointer. Nothing stalls them, so every slot passes one, and the
pipeline is known. The last two fetch from the address read. From there on the
instructions are carried out in the order of the architecture.

## Main definitions

* `CpuRun.Vector`: what the address 0 is read as
* `CpuRun.Starting`: before the first instruction

## Main results

* `CpuRun.Starting.slot`: one slot of the start
* `CpuRun.control_flow`: the instructions that are taken up, from the reset on
-/

namespace JCore

open Datapath DecodeTable RegisterFile

/-! ### The lines -/

/-- The operation that the decoder is reset to. -/
def startOp : Operation := decCoreRomReset.op

/-- Its lines, which do not depend on T. -/
def startLine (k : ℕ) : TableLine := decodeTable (startOp.atLine k) false false

/-- The pipeline behind the first `k` of them. -/
def startPipeline : ℕ → Pipeline
  | 0 => pipelineReset
  | k + 1 => (startPipeline k).step true false (startLine k)

theorem decodeTable_startOp : ∀ k < 6, ∀ t, decodeTable (startOp.atLine k) t false = startLine k := by
  decide +kernel

/-- No line of the start is stalled. -/
theorem free_startLine : ∀ k < 6,
    DecodeCore.regConf (startPipeline k) (startLine k).ex (startLine k).exStall = false ∧
      (startLine k).macStallSense = false ∧ (startLine k).debug = false := by
  decide +kernel

/-- They belong to one operation, and only the fifth fetches. -/
theorem idle_startLine : ∀ k < 5, (startLine k).dispatch = false ∧ (startLine k).id.incpc = false ∧
    (startLine k).id.ifIssue = (k == 4) ∧ (startLine 4).id.ifadsel = true := by
  decide +kernel

theorem plain_startOp : Plain (startOp.atLine 5).addr := ⟨1, by decide +kernel⟩

theorem wrpc_startPipeline : ∀ k < 6, (startPipeline k).ex1Stall.wrpcZ = (k == 4) := by decide +kernel

/-- The second and the third one read. -/
theorem drivesData_startPipeline : ∀ k < 5, ∀ copro core,
    drivesData (Cpu.stageCtrl copro { core := core, pipeline := startPipeline k }) =
      (k == 2 || k == 3) := by
  have issue : ∀ k < 5, (startPipeline k).mem.issue = (k == 2 || k == 3) := by decide +kernel
  have lds : ∀ k < 5, (startPipeline k).coproc.coprocCmd = .nop := by decide +kernel
  intro k small copro core
  cases copro
  · show ((startPipeline k).mem.issue || false) = _
    rw [issue k small, Bool.or_false]
  · show ((startPipeline k).mem.issue || (startPipeline k).coproc.coprocCmd == .lds) = _
    rw [issue k small, lds k small]
    exact Bool.or_false _

namespace CpuRun

/-! ### The first slots -/

section Starting

variable (run : CpuRun)

/-- The decoder has passed `k` lines of the start. -/
structure Starting (t k : ℕ) : Prop where
  boundary : run.boundary t = false
  op : (run.state t).dec.core.op = startOp.atLine k
  pipeline : (run.state t).dec.pipeline = startPipeline k

variable {run} {t k : ℕ}

theorem starting_zero : run.Starting 0 0 := ⟨rfl, rfl, rfl⟩

theorem Starting.presented (h : run.Starting t k) : run.op t = startOp.atLine k := by
  rw [op_of_not_boundary h.boundary, h.op]

theorem Starting.not_stalled (h : run.Starting t k) (small : k < 6) : run.stalled t = false := by
  obtain ⟨conf, mac, -⟩ := free_startLine k small
  have line : decodeTable (run.op t) (run.tBcc t) false = startLine k := by
    rw [h.presented, decodeTable_startOp k small]
  have stall : run.stalled t = DecodeCore.nextIdStall (Decoder.coreI (run.state t).dec
      (Cpu.decoderI (run.state t) (run.clk t)) (decodeTable (run.op t) (run.tBcc t) false)) := rfl
  rw [stall, line, DecodeCore.nextIdStall, DecodeCore.macStall]
  simp only [Decoder.coreI, h.pipeline, conf, mac, Bool.false_and]
  rfl

theorem Starting.line (h : run.Starting t k) (small : k < 6) :
    Cpu.line run.coproDecode (run.state t) (run.clk t) = startLine k := by
  have stall : Decoder.romStall (run.state t).dec (Cpu.decoderI (run.state t) (run.clk t))
    (Cpu.tBcc run.coproDecode (run.state t) (run.clk t)) = false := h.not_stalled small
  have here : Decoder.romOp (run.state t).dec (Cpu.decoderI (run.state t) (run.clk t)) =
    startOp.atLine k := h.presented
  rw [Cpu.line, Decoder.romLine, stall, here, decodeTable_startOp k small]

theorem Starting.wait (h : run.Starting t k) (slot : run.slot t = false) : run.Starting (t + 1) k where
  boundary := by rw [boundary_succ_of_not_slot slot, h.boundary]
  op := by rw [dec_succ_of_not_slot slot, h.op]
  pipeline := by rw [dec_succ_of_not_slot slot, h.pipeline]

theorem Starting.slot (h : run.Starting t k) (small : k < 5) (slot : run.slot t = true) :
    run.Starting (t + 1) (k + 1) := by
  have go := h.not_stalled (Nat.lt_succ_of_lt small)
  have line := h.line (Nat.lt_succ_of_lt small)
  constructor
  case boundary =>
    have disp : dispatch (microcodeLine (run.op t).addr) (run.tBcc t) = (startLine k).dispatch := by
      rw [← line]
      rfl
    rw [boundary_succ_of_slot slot, disp, (idle_startLine k small).1, Bool.and_false]
  case op =>
    rw [op_succ_of_slot slot, go, h.presented, Operation.atLine_succ startOp]
    rfl
  case pipeline => rw [pipeline_succ_of_slot slot, go, line, h.pipeline, startPipeline]

theorem Starting.wrpc (h : run.Starting t k) (small : k < 6) : run.wrpc t = (k == 4) := by
  rw [CpuRun.wrpc, h.pipeline, wrpc_startPipeline k small]

theorem Starting.drivesData (h : run.Starting t k) (small : k < 5) :
    Datapath.drivesData (Cpu.ctrl run.coproDecode (run.state t)) = (k == 2 || k == 3) := by
  have dec : (run.state t).dec =
      { core := (run.state t).dec.core, pipeline := startPipeline k } := by rw [← h.pipeline]
  rw [Cpu.ctrl, dec, drivesData_startPipeline k small]

end Starting

/-! ### The reset vector -/

section Vector

variable (run : CpuRun) (entry : BitVec 32)

/-- Before the first instruction the data memory answers `entry` at address 0. -/
def Vector : Prop :=
  ∀ t, (∀ u ≤ t, run.selects u = false) → (run.dataO t).en = true → (run.dataO t).a = 0 →
    (run.clk t).dbI.ack = true → (run.clk t).dbI.d = entry

/-- Where the word at address 0 is, behind `k` lines of the start. -/
def VectorAt (this : DatapathReg) : ℕ → Prop
  | 3 => (this.dataO.en = true ∧ this.dataO.a = 0 ∧ this.dataOSize = .long) ∨
      (this.dataO.en = false ∧ this.mEn = true ∧ this.mDrNext = entry)
  | 4 => this.mDr = entry
  | _ => this.dataO.en = false

section Clock

variable {entry : BitVec 32} {this : DatapathReg} {ctrl : StageCtrl} {dec : DecodeCtrl} {v : ProcessI}
  {i : DatapathI} {k : ℕ}

theorem VectorAt.wait (h : VectorAt entry this k)
    (answer : this.dataO.en = true → this.dataO.a = 0 → i.dbI.ack = true → i.dbI.d = entry)
    (slot : slotO this i = false) : VectorAt entry (process this ctrl dec v i) k := by
  have dataO : (process this ctrl dec v i).dataO =
      if dataAcked this i then nullDataO else this.dataO := by
    rw [process_dataO, slot, Bool.false_and, if_neg Bool.false_ne_true]
  have size : (process this ctrl dec v i).dataOSize = this.dataOSize := by
    rw [process_dataOSize, slot, Bool.false_and, if_neg Bool.false_ne_true]
  have idle : this.dataO.en = false → (process this ctrl dec v i).dataO.en = false := by
    intro idle
    rw [dataO, dataAcked, idle, Bool.false_and, if_neg Bool.false_ne_true, idle]
  unfold VectorAt at h ⊢
  split at h
  case h_1 =>
    rcases h with ⟨en, addr, long⟩ | ⟨en, waits, word⟩
    · cases ack : i.dbI.ack with
      | false =>
        have waits : dataAcked this i = false := by rw [dataAcked, ack, Bool.and_false]
        rw [dataO, size, waits, if_neg Bool.false_ne_true]
        exact .inl ⟨en, addr, long⟩
      | true =>
        have acked : dataAcked this i = true := by rw [dataAcked, en, ack, Bool.true_and]
        refine .inr ⟨?_, ?_, ?_⟩
        · rw [dataO, acked]
          rfl
        · rw [process_mEn, acked, slot]
          rfl
        · rw [process_mDrNext_of_not_slot _ _ _ _ _ slot, dataWord, acked, if_pos rfl, long]
          exact answer en addr ack
    · have waiting : dataAcked this i = false := by rw [dataAcked, en, Bool.false_and]
      refine .inr ⟨idle en, ?_, ?_⟩
      · rw [process_mEn, waits, slot, Bool.or_true, Bool.not_false, Bool.and_true]
      · rw [process_mDrNext_of_not_slot _ _ _ _ _ slot, dataWord, waiting,
          if_neg Bool.false_ne_true, Option.getD_none, word]
  case h_2 =>
    rw [process_mDr, slot, if_neg Bool.false_ne_true, h]
  case h_3 => exact idle h

/-- The line in the execute stage reads the word at address 0, and the next slot takes it. -/
theorem VectorAt.slot (h : VectorAt entry this k) (small : k < 4)
    (answer : this.dataO.en = true → this.dataO.a = 0 → i.dbI.ack = true → i.dbI.d = entry)
    (slot : slotO this i = true) (drives : drivesData ctrl = (k == 2 || k == 3))
    (read : k = 2 → ctrl.mem.issue = true ∧ ctrl.mem.wr = false ∧ ctrl.mem.size = .long ∧
      maAd ctrl v = 0) : VectorAt entry (process this ctrl dec v i) (k + 1) := by
  have idle : this.dataO.en = false → drivesData ctrl = false →
      (process this ctrl dec v i).dataO.en = false := by
    intro idle quiet
    rw [process_dataO, slot, quiet, Bool.and_false, if_neg Bool.false_ne_true, dataAcked, idle,
      Bool.false_and, if_neg Bool.false_ne_true, idle]
  interval_cases k
  case «0» => exact idle h drives
  case «1» => exact idle h drives
  case «2» =>
    obtain ⟨issue, wr, long, addr⟩ := read rfl
    have starts : (slotO this i && drivesData ctrl) = true := by rw [slot, drives]; rfl
    refine .inl ⟨?_, ?_, ?_⟩
    · rw [process_dataO, starts, if_pos rfl, en_toDataO, issue]
    · rw [process_dataO, starts, if_pos rfl, toDataO, issue, if_pos rfl, wr, addr]
      rfl
    · rw [process_dataOSize, starts, if_pos rfl, long]
  case «3» =>
    rcases h with ⟨en, addr, long⟩ | ⟨en, waits, word⟩
    · have ack : i.dbI.ack = true := by
        simp only [slotO, en, Bool.true_and, Bool.not_not, Bool.and_eq_true] at slot
        exact slot.1.1
      have acked : dataAcked this i = true := by rw [dataAcked, en, ack, Bool.true_and]
      show (process this ctrl dec v i).mDr = entry
      rw [process_mDr, slot, if_pos rfl, dataReady, dataWord, acked, if_pos rfl, long]
      exact answer en addr ack
    · have waiting : dataAcked this i = false := by rw [dataAcked, en, Bool.false_and]
      show (process this ctrl dec v i).mDr = entry
      rw [process_mDr, slot, if_pos rfl, dataReady, dataWord, waiting, if_neg Bool.false_ne_true,
        waits, if_pos rfl]
      exact word

end Clock

end Vector

/-! ### The start -/

section Start

variable (run : CpuRun) (memory : InstrMemory) (entry : BitVec 32)

/-- Up to the fifth line nothing is fetched. -/
structure Booting (t k : ℕ) : Prop where
  starting : run.Starting t k
  small : k < 5
  vector : VectorAt entry (run.state t).data.this k
  front : run.FrontAt memory t 0 none 0

/-- Before the sixth line the first instruction is under way. -/
structure Entering (t : ℕ) : Prop where
  starting : run.Starting t 5
  front : ∃ word, run.FrontAt memory t entry (some entry) word

/-- The stages of a run: nothing was taken up yet, or an instruction of the sequence. -/
inductive Stage (t : ℕ) : Prop where
  | booting (k : ℕ) (h : run.Booting memory entry t k) (none : ∀ u < t, run.selects u = false)
  | entering (h : run.Entering memory entry t) (none : ∀ u < t, run.selects u = false)
  | going (h : run.Phase memory t (run.flow memory (Flow.start entry) t))

variable {run memory entry} {t k : ℕ}

theorem flow_of_none {f : Flow} (none : ∀ u < t, run.selects u = false) : run.flow memory f t = f := by
  induction t with
  | zero => rfl
  | succ t ih =>
    rw [flow, none t (Nat.lt_succ_self t), if_neg Bool.false_ne_true]
    exact ih fun u hu => none u (Nat.lt_succ_of_lt hu)

theorem Starting.not_selects (h : run.Starting t k) (none : ∀ u < t, run.selects u = false) :
    ∀ u < t + 1, run.selects u = false := by
  intro u hu
  rcases Nat.lt_succ_iff_lt_or_eq.mp hu with earlier | rfl
  · exact none u earlier
  · rw [selects, h.boundary, Bool.and_false]

theorem Starting.debug (h : run.Starting t k) (small : k < 6) :
    DecodeTable.debug (microcodeLine (run.op t).addr) = false := by
  rw [← (free_startLine k small).2.2, ← h.line small]
  rfl

theorem Booting.answer (h : run.Booting memory entry t k) (vector : run.Vector entry)
    (none : ∀ u < t, run.selects u = false) : (run.state t).data.this.dataO.en = true →
      (run.state t).data.this.dataO.a = 0 → (run.clk t).datapathI.dbI.ack = true →
      (run.clk t).datapathI.dbI.d = entry :=
  vector t fun u hu => h.starting.not_selects none u (Nat.lt_succ_of_le hu)

theorem Booting.wait (h : run.Booting memory entry t k) (quiet : run.Undisturbed memory)
    (vector : run.Vector entry) (none : ∀ u < t, run.selects u = false) (slot : run.slot t = false) :
    run.Booting memory entry (t + 1) k where
  starting := h.starting.wait slot
  small := h.small
  vector := h.vector.wait (h.answer vector none) slot
  front := h.front.wait quiet (h.starting.debug (Nat.lt_succ_of_lt h.small)) slot

/-- The third line reads at address 0. -/
theorem read_of_starting (h : run.Starting t 2) (calm : Calm (run.state t).data.this) :
    (Cpu.ctrl run.coproDecode (run.state t)).mem.issue = true ∧
      (Cpu.ctrl run.coproDecode (run.state t)).mem.wr = false ∧
      (Cpu.ctrl run.coproDecode (run.state t)).mem.size = .long ∧
      maAd (Cpu.ctrl run.coproDecode (run.state t))
        (Cpu.processI run.coproDecode (run.state t) (run.clk t)) = 0 := by
  have mem : (Cpu.ctrl run.coproDecode (run.state t)).mem = (startPipeline 2).mem := by
    rw [← h.pipeline]
    rfl
  have buses : (Cpu.ctrl run.coproDecode (run.state t)).buses = (startPipeline 2).buses := by
    rw [← h.pipeline]
    rfl
  have line : (startPipeline 2).mem.issue = true ∧ (startPipeline 2).mem.wr = false ∧
      (startPipeline 2).mem.size = .long ∧ (startPipeline 2).mem.addrSel = .selZbus ∧
      (startPipeline 2).buses.zSel = .selYbus ∧ (startPipeline 2).buses.ySel = .selImm ∧
      (startPipeline 2).buses.immVal = 0 := by decide +kernel
  obtain ⟨issue, wr, size, addr, z, y, imm⟩ := line
  rw [mem]
  refine ⟨issue, wr, size, ?_⟩
  rw [maAd, mem, addr]
  show Datapath.zbus _ _ _ _ = 0
  rw [Datapath.zbus, buses, z]
  show Datapath.ybus _ _ _ _ = 0
  rw [ybus, calm.ybusOverride0, if_neg Bool.false_ne_true, ybusTemp, buses, y]
  exact imm

/-- The fifth one assigns the word to PC. -/
theorem zbus_of_starting (h : run.Starting t 4) : run.zbus t = (run.state t).data.this.mDr := by
  have buses : (Cpu.ctrl run.coproDecode (run.state t)).buses = (startPipeline 4).buses := by
    rw [← h.pipeline]
    rfl
  have line : (startPipeline 4).buses.zSel = .selWbus := by decide +kernel
  show Datapath.zbus _ _ _ _ = _
  rw [Datapath.zbus, buses, line]
  rfl

/-- The first clock after the reset is a slot, and starts nothing. -/
theorem booting_one (quiet : run.Undisturbed memory) : run.Booting memory entry 1 1 := by
  have start : run.Starting 0 0 := starting_zero
  have slot : run.slot 0 = true := rfl
  have debug : DecodeTable.debug (microcodeLine (run.op 0).addr) = false := start.debug (by decide)
  have line := start.line (by decide)
  have calm : Calm (run.state 0).data.this := ⟨rfl, rfl, rfl, rfl⟩
  have drives := start.drivesData (by decide)
  have incpc : (Cpu.decodeCtrl run.coproDecode (run.state 0) (run.clk 0)).inc = false := by
    have idle : (startLine 0).id.incpc = false := (idle_startLine 0 (by decide)).2.1
    show ((Cpu.line run.coproDecode (run.state 0) (run.clk 0)).id.incpc && _) = false
    rw [line, idle, Bool.false_and]
  have issue : (Cpu.decodeCtrl run.coproDecode (run.state 0) (run.clk 0)).instr.issue = false := by
    have idle : (startLine 0).id.ifIssue = false := (idle_startLine 0 (by decide)).2.2.1
    show ((Cpu.line run.coproDecode (run.state 0) (run.clk 0)).id.ifIssue && _ && _) = false
    rw [line, idle, Bool.false_and, Bool.false_and]
  have next : (run.state 1).data.this = process (run.state 0).data.this
      (Cpu.ctrl run.coproDecode (run.state 0)) (Cpu.decodeCtrl run.coproDecode (run.state 0) (run.clk 0))
      (Cpu.processI run.coproDecode (run.state 0) (run.clk 0)) (run.clk 0).datapathI := rfl
  have slot' : slotO (run.state 0).data.this (run.clk 0).datapathI = true := slot
  have pc : (run.state 1).data.this.pc = 0 := by
    have wrZ : (Cpu.ctrl run.coproDecode (run.state 0)).wrZ = false := rfl
    rw [next, process_pc, slot', if_pos rfl, slotPc, wrZ, incpc]
    rfl
  have ready : instReady (run.state 0).data.this (run.clk 0).datapathI = none := rfl
  refine ⟨start.slot (by decide) slot, by decide, ?_, ?_⟩
  · have idle : (run.state 0).data.this.dataO.en = false := rfl
    exact VectorAt.slot (k := 0) idle (by decide) (fun en => absurd (idle.symm.trans en) Bool.false_ne_true)
      slot drives fun first => absurd first (by decide)
  · constructor
    case calm => exact calm.process (quiet.debug 0) debug
    case pc => exact pc
    case pcInc => rw [next, process_pcInc, ← next, pc]
    case fetch =>
      have request : slotRequest (run.state 0).data.this
          (Cpu.decodeCtrl run.coproDecode (run.state 0) (run.clk 0))
          (Cpu.processI run.coproDecode (run.state 0) (run.clk 0)) = none := by
        rw [slotRequest, issue, Bool.false_and, if_neg Bool.false_ne_true]
      constructor
      · rw [next, process_instO, slot', if_pos rfl, request]
        rfl
      · rw [next, process_ifEn, slot', Bool.not_true, Bool.and_false]
    case ifDr =>
      rw [next, process_ifDr, ready, slot', if_pos rfl]
      rfl
    case illegalDelaySlot =>
      have zero : checkIllegalDelaySlot 0 = false := by decide
      rw [next, process_illegalDelaySlot, ready, ite_self, zero]
      rfl
    case illegalInstr =>
      have zero : checkIllegalInstruction 0 = false := by decide
      rw [next, process_illegalInstr, ready, ite_self, zero]
      rfl

/-- A slot of the start. -/
theorem Booting.slot (h : run.Booting memory entry t k) (quiet : run.Undisturbed memory)
    (vector : run.Vector entry) (none : ∀ u < t, run.selects u = false) (slot : run.slot t = true) :
    (k < 4 ∧ run.Booting memory entry (t + 1) (k + 1)) ∨ run.Entering memory entry (t + 1) := by
  have small : k < 6 := Nat.lt_succ_of_lt h.small
  have debug := h.starting.debug small
  have line := h.starting.line small
  obtain ⟨-, idle, issue, adsel⟩ := idle_startLine k h.small
  have front := h.front.slot quiet debug slot
  have incpc : incpc (microcodeLine (run.op t).addr) = false := by
    rw [← idle, ← line]
    rfl
  have ifIssue : ifIssue (microcodeLine (run.op t).addr) (run.tBcc t) = (k == 4) := by
    rw [← issue, ← line]
    rfl
  rw [h.starting.wrpc small, incpc, ifIssue, h.starting.not_stalled small] at front
  by_cases last : k = 4
  · subst last
    have ifadsel : ifadsel (microcodeLine (run.op t).addr) = true := by
      rw [← adsel, ← line]
      rfl
    have word : (run.state t).data.this.mDr = entry := h.vector
    rw [ifadsel, zbus_of_starting h.starting, word] at front
    exact .inr ⟨h.starting.slot h.small slot, _, front⟩
  · have early : k < 4 := lt_of_le_of_ne (Nat.lt_succ_iff.mp h.small) last
    have other : (k == 4) = false := beq_false_of_ne last
    rw [other] at front
    refine .inl ⟨early, h.starting.slot h.small slot, Nat.succ_lt_succ early, ?_, front⟩
    refine h.vector.slot early (h.answer vector none) slot (h.starting.drivesData h.small) ?_
    rintro rfl
    exact read_of_starting h.starting h.front.calm

theorem Entering.wait (h : run.Entering memory entry t) (quiet : run.Undisturbed memory)
    (slot : run.slot t = false) : run.Entering memory entry (t + 1) := by
  obtain ⟨word, front⟩ := h.front
  exact ⟨h.starting.wait slot, word, front.wait quiet (h.starting.debug (by decide)) slot⟩

theorem Entering.slot (h : run.Entering memory entry t) (quiet : run.Undisturbed memory)
    (slot : run.slot t = true) : run.Boundary memory (t + 1) (Flow.start entry) ∨
      run.Within memory (t + 1) (Flow.start entry) := by
  obtain ⟨word, front⟩ := h.front
  have plain : Plain (run.op t).addr := by
    rw [h.starting.presented]
    exact plain_startOp
  exact plain_slot quiet slot plain front rfl (h.starting.wrpc (by decide))

/-! ### Runs -/

variable {bankA bankB : Fin 21 → BitVec 32}

theorem Stage.step (cleared : run.regs = RegisterFile.reset bankA bankB)
    (quiet : run.Undisturbed memory) (vector : run.Vector entry) (h : run.Stage memory entry t)
    (ordinary : Ordinary (wordAt memory (run.flow memory (Flow.start entry) t).pc)
      (run.flow memory (Flow.start entry) t).inSlot) : run.Stage memory entry (t + 1) := by
  cases h with
  | booting k h none =>
    have none' := h.starting.not_selects none
    cases slot : run.slot t with
    | false => exact .booting k (h.wait quiet vector none slot) none'
    | true =>
      rcases h.slot quiet vector none slot with ⟨-, next⟩ | next
      · exact .booting (k + 1) next none'
      · exact .entering next none'
  | entering h none =>
    have none' := h.starting.not_selects none
    cases slot : run.slot t with
    | false => exact .entering (h.wait quiet slot) none'
    | true =>
      refine .going ?_
      rw [flow_of_none none']
      exact .of_plain (h.slot quiet slot)
  | going h => exact .going (h.step cleared quiet ordinary)

theorem stage_succ (cleared : run.regs = RegisterFile.reset bankA bankB)
    (quiet : run.Undisturbed memory) (vector : run.Vector entry)
    (ordinary : ∀ u ≤ t, Ordinary (wordAt memory (run.flow memory (Flow.start entry) u).pc)
      (run.flow memory (Flow.start entry) u).inSlot) : run.Stage memory entry (t + 1) := by
  induction t with
  | zero =>
    refine .booting 1 (booting_one quiet) fun u hu => ?_
    obtain rfl := Nat.lt_one_iff.mp hu
    rfl
  | succ t ih =>
    exact (ih fun u hu => ordinary u (Nat.le_succ_of_le hu)).step cleared quiet vector
      (ordinary (t + 1) le_rfl)

/-- Where an instruction is taken up the sequence is behind the one before. -/
theorem boundary_flow (cleared : run.regs = RegisterFile.reset bankA bankB)
    (quiet : run.Undisturbed memory) (vector : run.Vector entry)
    (ordinary : ∀ u ≤ t, Ordinary (wordAt memory (run.flow memory (Flow.start entry) u).pc)
      (run.flow memory (Flow.start entry) u).inSlot)
    (taken : run.selects t = true) :
    run.Boundary memory t (run.flow memory (Flow.start entry) t) := by
  have boundary : run.boundary t = true := by
    rw [selects, Bool.and_eq_true] at taken
    exact taken.2
  obtain _ | t := t
  · exact absurd boundary Bool.false_ne_true
  cases stage_succ cleared quiet vector fun u hu => ordinary u (Nat.le_succ_of_le hu) with
  | booting k h none => exact absurd (h.starting.boundary.symm.trans boundary) Bool.false_ne_true
  | entering h none => exact absurd (h.starting.boundary.symm.trans boundary) Bool.false_ne_true
  | going h =>
    cases h with
    | boundary h => exact h
    | within h => exact absurd (h.boundary.symm.trans boundary) Bool.false_ne_true
    | waiting b before h => exact absurd (h.boundary.symm.trans boundary) Bool.false_ne_true
    | jumping b before n h => exact absurd (h.boundary.symm.trans boundary) Bool.false_ne_true
    | refilling b h => exact absurd (h.boundary.symm.trans boundary) Bool.false_ne_true

/-- From the reset on, for every stall and every latency of the memories: the
instructions that are taken up are those of the sequence that begins at `entry`, with
branches decided and their targets computed from what the lines before them wrote. PC
points behind the instruction, or to the target if the instruction lies in a delay slot,
where PR holds the return address of a call. -/
theorem control_flow (run : CpuRun) (memory : InstrMemory) (entry : BitVec 32)
    (cleared : run.regs = RegisterFile.reset bankA bankB) (quiet : run.Undisturbed memory)
    (vector : run.Vector entry) (t : ℕ)
    (ordinary : ∀ u ≤ t, Ordinary (wordAt memory (run.flow memory (Flow.start entry) u).pc)
      (run.flow memory (Flow.start entry) u).inSlot)
    (taken : run.selects t = true) :
    let f := run.flow memory (Flow.start entry) t
    run.op t = DecodeCore.normalOp .rom predecodeRomAddr (wordAt memory f.pc) ∧
      (run.state t).data.this.pc = f.next ∧
      ∀ pr, f.link = some pr → ∀ port, port ≠ .zero → run.programRegs port (run.slots t) regPr = pr := by
  intro f
  have h := boundary_flow cleared quiet vector ordinary taken
  exact ⟨h.op_eq quiet (ordinary t le_rfl), h.front.pc, h.link⟩

end Start

/-! ### A sample -/

section Sample

open Closed

/-- The sequence of the sample, whose only branch on T finds it clear. -/
def sampleFlow (n : ℕ) : Flow :=
  (fun f => f.step (wordAt sampleProgram f.pc) false (fun _ => 0) fun _ => 0)^[n] (.start 0x100)

theorem flow_sample {t : ℕ} (small : t ≤ 18) :
    sampleRun.flow sampleProgram (.start 0x100) t = sampleFlow (sampleRun.taken t) := by
  have known : ∀ u < 18, sampleRun.selects u = true →
      (Branch.ofCode (wordAt sampleProgram (sampleFlow (sampleRun.taken u)).pc)).all (fun b =>
        (b == .bsr || b == .bfs) && (sampleRun.op u).addr == b.startAddr &&
          b.taken (sampleRun.tBcc u) == b.taken false) = true := by decide +kernel
  induction t with
  | zero => rfl
  | succ t ih =>
    specialize ih (Nat.le_of_succ_le small)
    rw [flow, taken_succ, ih]
    cases sel : sampleRun.selects t with
    | false => rfl
    | true =>
      have slot : sampleRun.slot t = true := by
        rw [selects, Bool.and_eq_true] at sel
        exact sel.1
      rw [if_pos rfl, if_pos rfl, sampleFlow, sampleFlow, Function.iterate_succ_apply', ← sampleFlow]
      refine Flow.step_congr fun b branch => ?_
      have here := known t small sel
      rw [branch, Option.all_some, Bool.and_eq_true, Bool.and_eq_true, beq_iff_eq, beq_iff_eq,
        Bool.or_eq_true, beq_iff_eq, beq_iff_eq] at here
      obtain ⟨⟨which, line⟩, decided⟩ := here
      refine ⟨(taken_tBcc slot line).symm.trans decided, ?_⟩
      rcases which with rfl | rfl <;> rfl

theorem ordinary_sample {t : ℕ} (small : t ≤ 18) :
    Ordinary (wordAt sampleProgram (sampleRun.flow sampleProgram (.start 0x100) t).pc)
      (sampleRun.flow sampleProgram (.start 0x100) t).inSlot := by
  have words : ∀ n < 10, isInstruction (wordAt sampleProgram (sampleFlow n).pc) = true ∧
      isSystem (wordAt sampleProgram (sampleFlow n).pc) = false ∧
      checkIllegalInstruction (wordAt sampleProgram (sampleFlow n).pc) = false ∧
      ((sampleFlow n).inSlot = true →
        checkIllegalDelaySlot (wordAt sampleProgram (sampleFlow n).pc) = false) := by
    decide +kernel
  have few : sampleRun.taken t < 10 := by
    refine (Nat.count_monotone _ small).trans_lt ?_
    show sampleRun.taken 18 < 10
    decide +kernel
  rw [flow_sample small]
  obtain ⟨instruction, notSystem, legal, legalInSlot⟩ := words _ few
  exact ⟨instruction, notSystem, legal, legalInSlot⟩

/-- The program begins at `0x100`. -/
theorem vector_sample : sampleRun.Vector 0x100 := by
  have reads : ∀ t < 6, (sampleRun.dataO t).en = true → (sampleRun.dataO t).a = 0 →
      (sampleRun.clk t).dbI.d = 0x100 := by decide +kernel
  have first : sampleRun.selects 6 = true := by decide +kernel
  intro t none en zero _
  refine reads t (Nat.lt_of_not_le fun late => ?_) en zero
  exact Bool.false_ne_true ((none 6 late).symm.trans first)

/-- The call is carried out in the clocks 9 and 10: the instruction behind it, with PC at
the target and PR at the return address, and the one at the target. The branch on T is in
the clocks 16 and 17. -/
theorem control_flow_sample :
    (sampleRun.op 9 = DecodeCore.normalOp .rom predecodeRomAddr 0x2F16 ∧
      (sampleRun.state 9).data.this.pc = 0x10A ∧
      sampleRun.programRegs .a (sampleRun.slots 9) regPr = 0x106) ∧
    (sampleRun.op 10 = DecodeCore.normalOp .rom predecodeRomAddr 0x62F2 ∧
      (sampleRun.state 10).data.this.pc = 0x10C) ∧
    (sampleRun.op 16 = DecodeCore.normalOp .rom predecodeRomAddr 0x7202 ∧
      (sampleRun.state 16).data.this.pc = 0x106) ∧
    sampleRun.op 17 = DecodeCore.normalOp .rom predecodeRomAddr 0x032A ∧
      (sampleRun.state 17).data.this.pc = 0x108 := by
  have taken : sampleRun.selects 9 = true ∧ sampleRun.selects 10 = true ∧
      sampleRun.selects 16 = true ∧ sampleRun.selects 17 = true := by decide +kernel
  have flows : sampleFlow (sampleRun.taken 9) = ⟨0x104, 0x10A, true, some 0x106⟩ ∧
      sampleFlow (sampleRun.taken 10) = ⟨0x10A, 0x10C, false, none⟩ ∧
      sampleFlow (sampleRun.taken 16) = ⟨0x112, 0x106, true, none⟩ ∧
      sampleFlow (sampleRun.taken 17) = ⟨0x106, 0x108, false, none⟩ := by decide +kernel
  have words : wordAt sampleProgram 0x104 = 0x2F16 ∧ wordAt sampleProgram 0x10A = 0x62F2 ∧
      wordAt sampleProgram 0x112 = 0x7202 ∧ wordAt sampleProgram 0x106 = 0x032A := by
    decide +kernel
  obtain ⟨slot, target, slot', target'⟩ := taken
  have call := control_flow sampleRun sampleProgram 0x100 rfl undisturbed_run vector_sample 9
    (fun u hu => ordinary_sample (hu.trans (by decide))) slot
  have there := control_flow sampleRun sampleProgram 0x100 rfl undisturbed_run vector_sample 10
    (fun u hu => ordinary_sample (hu.trans (by decide))) target
  have branch := control_flow sampleRun sampleProgram 0x100 rfl undisturbed_run vector_sample 16
    (fun u hu => ordinary_sample (hu.trans (by decide))) slot'
  have back := control_flow sampleRun sampleProgram 0x100 rfl undisturbed_run vector_sample 17
    (fun u hu => ordinary_sample (hu.trans (by decide))) target'
  simp only [flow_sample (show 9 ≤ 18 by decide), flows.1, words.1] at call
  simp only [flow_sample (show 10 ≤ 18 by decide), flows.2.1, words.2.1] at there
  simp only [flow_sample (show 16 ≤ 18 by decide), flows.2.2.1, words.2.2.1] at branch
  simp only [flow_sample (show 17 ≤ 18 by decide), flows.2.2.2, words.2.2.2] at back
  exact ⟨⟨call.1, call.2.1, call.2.2 _ rfl .a (by decide)⟩, ⟨there.1, there.2.1⟩,
    ⟨branch.1, branch.2.1⟩, back.1, back.2.1⟩

end Sample

end CpuRun

end JCore
