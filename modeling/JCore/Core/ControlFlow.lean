import JCore.Core.Front
import JCore.Core.Reads
import JCore.Decode.Branches

/-!
# Control flow

The CPU carries out the instructions of its program in the order of the architecture.
The fetch runs ahead by one instruction at least, a branch changes its course in the
middle of that, and the lines of both may wait for registers, for the multiplier and for
the memories. At every clock one of five phases holds, which ties the program counter,
the fetched word and the fetch under way to the microcode line and to the two
instructions that are next.

## Main definitions

* `CpuRun.selects`: the clocks in which an instruction is taken up
* `CpuRun.Phase`: the phases of an instruction
* `CpuRun.flow`: the sequence of instructions, from T and the registers in program order

## Main results

* `CpuRun.Phase.step`: one clock
-/

namespace JCore

open Datapath DecodeTable RegisterFile

namespace CpuRun

/-! ### Lines and stalls -/

section Lines

variable {run : CpuRun} {t n : ℕ}

theorem stalled_of_unstallable (h : unstallable (microcodeLine (run.op t).addr) = true) :
    run.stalled t = false := by
  simp only [unstallable, Bool.and_eq_true, bne_iff_ne, ne_eq, Bool.not_eq_true'] at h
  obtain ⟨⟨⟨⟨hx, hy⟩, hz⟩, h0⟩, hmac⟩ := h
  have stall : run.stalled t = DecodeCore.nextIdStall (Decoder.coreI (run.state t).dec
      (Cpu.decoderI (run.state t) (run.clk t))
      (Cpu.line run.coproDecode (run.state t) (run.clk t))) := rfl
  have conf : DecodeCore.regConf (run.state t).dec.pipeline
      (Cpu.line run.coproDecode (run.state t) (run.clk t)).ex
      (Cpu.line run.coproDecode (run.state t) (run.clk t)).exStall = false := by
    have hx' : (Cpu.line run.coproDecode (run.state t) (run.clk t)).ex.xbusSel ≠ .selReg := hx
    have hy' : (Cpu.line run.coproDecode (run.state t) (run.clk t)).ex.ybusSel ≠ .selReg := hy
    have hz' : (Cpu.line run.coproDecode (run.state t) (run.clk t)).exStall.wrregZ = false := hz
    have h0' : (Cpu.line run.coproDecode (run.state t) (run.clk t)).ex.aluinySel ≠ .selR0 := h0
    simp [DecodeCore.regConf, hx', hy', hz', h0']
  have mac : DecodeCore.macStall (Decoder.coreI (run.state t).dec
      (Cpu.decoderI (run.state t) (run.clk t))
      (Cpu.line run.coproDecode (run.state t) (run.clk t))) = false := by
    have hmac' : (Decoder.coreI (run.state t).dec (Cpu.decoderI (run.state t) (run.clk t))
        (Cpu.line run.coproDecode (run.state t) (run.clk t))).line.macStallSense = false := hmac
    rw [DecodeCore.macStall, hmac', Bool.false_and]
  rw [stall, DecodeCore.nextIdStall, mac]
  simp only [Decoder.coreI, conf]
  rfl

/-- The assignment to PC in the execute stage after a slot. -/
theorem wrpc_succ_of_slot (slot : run.slot t = true) : run.wrpc (t + 1) =
    (!run.stalled t && wrpcZ (microcodeLine (run.op t).addr) (run.tBcc t)) := by
  rw [wrpc, pipeline_succ_of_slot slot]
  show (if run.stalled t = true then stageExStallReset
    else (Cpu.line run.coproDecode (run.state t) (run.clk t)).exStall).wrpcZ = _
  cases run.stalled t <;> rfl

theorem wrpc_succ_of_not_slot (slot : run.slot t = false) : run.wrpc (t + 1) = run.wrpc t := by
  rw [wrpc, dec_succ_of_not_slot slot]
  rfl

theorem delaySlot_succ_of_slot (slot : run.slot t = true) (go : run.stalled t = false) :
    (run.state (t + 1)).dec.core.delaySlot = delayJump (microcodeLine (run.op t).addr) := by
  have core := congrArg DecodeCoreReg.delaySlot
    (@Decoder.core_romStep (run.state t).dec (Cpu.decoderI (run.state t) (run.clk t)) (run.tBcc t) slot)
  have stall : Decoder.romStall (run.state t).dec (Cpu.decoderI (run.state t) (run.clk t))
    (run.tBcc t) = false := go
  rw [stall] at core
  exact core

/-- A branch is decided by T in program order. -/
theorem taken_tBcc {b : Branch} (slot : run.slot t = true) (line : (run.op t).addr = b.startAddr) :
    b.taken (run.tBcc t) = b.taken (run.programSr (run.slots t)).t := by
  have order := (Cpu.sr_program_order run.coproDecode run.clk decoderReset.core
    (Datapath.reset run.regs) t slot).2.1
  have here : (Cpu.line run.coproDecode (run.state t) (run.clk t)).exStall.wrpcZ =
      wrpcZ (microcodeLine b.startAddr) (run.tBcc t) := by
    rw [← line]
    rfl
  have there : (Decoder.romLine (run.state t).dec (Cpu.decoderI (run.state t) (run.clk t))
      (run.programSr (run.slots t)).t).exStall.wrpcZ =
      wrpcZ (microcodeLine b.startAddr) (run.programSr (run.slots t)).t := by
    rw [← line]
    rfl
  rw [← (branchLine b).wrpcZ, ← here, ← (branchLine b).wrpcZ, ← there]
  exact congrArg (fun l : TableLine => l.exStall.wrpcZ) order

end Lines

/-! ### The target -/

section Target

variable {run : CpuRun} {t n : ℕ}

/-- The line issued in slot `n` is the first one of a branch. -/
structure IssuedBranch (run : CpuRun) (b : Branch) (code : BitVec 16) (n : ℕ) : Prop where
  issued : run.issued n = true
  line : ∃ op T stall, op.addr = b.startAddr ∧ op.code = code ∧
    (run.slotI n).line = decodeTable op T stall

theorem arith_low_add (x y : BitVec 32) : (arithUnit x y .add false).extractLsb' 0 32 = x + y := by
  have add : (ArithFunc.add == ArithFunc.sub) = false := rfl
  apply BitVec.eq_of_toNat_eq
  simp [arithUnit, xorAll, BitVec.toNat_add, add]

/-- The Z bus carries the sum of X and the second operand. -/
theorem zbus_of_sum {this : DatapathReg} {regs : RegisterFile 5 21 32} {ctrl : StageCtrl}
    {i : DatapathI} (sel : ctrl.buses.zSel = .selArith) (inx : ctrl.func.alu.inxSel = .selXbus)
    (func : ctrl.func.arith.func = .add) (sr : ctrl.func.arith.sr = .zero)
    (ci : ctrl.func.arith.ciEn = false) :
    Datapath.zbus this regs ctrl i = xbus this regs ctrl + aluiny this regs ctrl i := by
  have hfunc : Datapath.arithFunc this ctrl = .add := by
    rw [Datapath.arithFunc, sr, func]
    rfl
  rw [Datapath.zbus, sel, arithOut, aluinx, inx, hfunc, ci, Bool.false_and]
  exact arith_low_add _ _

variable {bankA bankB : Fin 21 → BitVec 32} {b : Branch} {code : BitVec 16} {pc : BitVec 32}

/-- In the execute stage the first line of a branch puts the target on the Z bus. -/
theorem zbus_of_branch (cleared : run.regs = RegisterFile.reset bankA bankB)
    (slot : run.slot t = true) (h : run.slots t = n + 1) (issue : IssuedBranch run b code n)
    (calm : (run.state t).data.this.ybusOverride0.en = false)
    (counter : b ≠ .rts → (run.state t).data.this.pc = pc + 4) :
    run.zbus t = b.target code pc (run.programRegs .a n) (run.programRegs .b n) := by
  obtain ⟨op, T, stall, haddr, rfl, hline⟩ := issue.line
  have ex := ex1_eq h
  rw [issue.issued, if_pos rfl] at ex
  have regX := regX_eq cleared slot h issue.issued
  have regY := regY_eq cleared slot h issue.issued
  rw [hline] at ex regX regY
  have hy : ybus (run.state t).data.this (run.state t).data.regs
      (Cpu.ctrl run.coproDecode (run.state t)) (run.clk t).datapathI =
      ybusTemp (run.state t).data.this (run.state t).data.regs
        (Cpu.ctrl run.coproDecode (run.state t)) (run.clk t).datapathI := by
    rw [ybus, calm, if_neg Bool.false_ne_true]
  by_cases hrts : b = .rts
  · subst hrts
    have hz : run.zbus t = ybus (run.state t).data.this (run.state t).data.regs
        (Cpu.ctrl run.coproDecode (run.state t)) (run.clk t).datapathI := by
      have sel : (Cpu.ctrl run.coproDecode (run.state t)).buses.zSel = .selYbus := by
        rw [← returnLine.zbusSel, ← haddr]
        exact congrArg PipelineExStall.zbusSel ex.2
      rw [zbus, Cpu.processI, Datapath.processI, Datapath.zbus, sel]
    have sel : (decodeTable op T stall).ex.ybusSel = .selReg := by
      rw [← returnLine.ybusSel, ← haddr]
      rfl
    have num : (decodeTable op T stall).ex.regnumY = regPr := by
      rw [← returnLine.regnumY op.code, ← haddr]
      rfl
    have ySel : (Cpu.ctrl run.coproDecode (run.state t)).buses.ySel = .selReg :=
      (congrArg PipelineEx.ybusSel ex.1).trans sel
    rw [hz, hy, ybusTemp, ySel, regY sel, num]
    rfl
  · have sum := sumLine b hrts
    have xSel : (Cpu.ctrl run.coproDecode (run.state t)).buses.xSel =
        xbusSel (microcodeLine op.addr) := congrArg PipelineEx.xbusSel ex.1
    have ySel : (Cpu.ctrl run.coproDecode (run.state t)).buses.ySel =
        ybusSel (microcodeLine op.addr) := congrArg PipelineEx.ybusSel ex.1
    have inySel : (Cpu.ctrl run.coproDecode (run.state t)).func.alu.inySel =
        aluinySel (microcodeLine op.addr) := congrArg PipelineEx.aluinySel ex.1
    have imm : (Cpu.ctrl run.coproDecode (run.state t)).buses.immVal =
        immVal (microcodeLine op.addr) op.code := congrArg PipelineEx.immVal ex.1
    have hz : run.zbus t = xbus (run.state t).data.this (run.state t).data.regs
        (Cpu.ctrl run.coproDecode (run.state t)) +
        aluiny (run.state t).data.this (run.state t).data.regs
          (Cpu.ctrl run.coproDecode (run.state t)) (run.clk t).datapathI := by
      refine zbus_of_sum ?_ ?_ ?_ ?_ ?_
      · rw [← sum.zbusSel, ← haddr]
        exact congrArg PipelineExStall.zbusSel ex.2
      · rw [← sum.aluinxSel, ← haddr]
        exact congrArg PipelineEx.aluinxSel ex.1
      · rw [← sum.arithFunc, ← haddr]
        exact congrArg PipelineEx.arithFunc ex.1
      · rw [← sum.arithSrFunc, ← haddr]
        exact congrArg PipelineEx.arithSrFunc ex.1
      · rw [← sum.arithCiEn, ← haddr]
        exact congrArg PipelineEx.arithCiEn ex.1
    rw [hz, xbus, aluiny, xSel, inySel, imm, hy, ybusTemp, ySel, imm, haddr]
    cases operands b hrts op.code with
    | displacement d x y iny imm target => rw [x, y, iny, imm, target, counter hrts]
    | distance x y iny num target =>
      have sel : (decodeTable op T stall).ex.ybusSel = .selReg := by
        rw [← y, ← haddr]
        rfl
      have num' : (decodeTable op T stall).ex.regnumY = Branch.regN op.code := by
        rw [← num, ← haddr]
        rfl
      rw [x, y, iny, target, counter hrts, regY sel, num']
    | register x iny imm num target =>
      have sel : (decodeTable op T stall).ex.xbusSel = .selReg := by
        rw [← x, ← haddr]
        rfl
      have num' : (decodeTable op T stall).ex.regnumX = Branch.regN op.code := by
        rw [← num, ← haddr]
        rfl
      rw [x, iny, imm, target, regX sel, num']
      exact BitVec.add_zero _

end Target

/-! ### Phases -/

section Phases

variable (run : CpuRun) (memory : InstrMemory)

/-- An instruction is taken up in clock `t`. -/
def selects (t : ℕ) : Bool := run.slot t && run.boundary t

/-- Behind an instruction, with `f` ahead. -/
structure Boundary (t : ℕ) (f : Flow) : Prop where
  boundary : run.boundary t = true
  front : run.FrontAt memory t f.next (some f.next) (wordAt memory f.pc)
  wrpc : run.wrpc t = false
  inSlot : (run.state t).dec.core.delaySlot = f.inSlot
  sequence : f.inSlot = false → f.next = f.pc + 2
  link : ∀ pr, f.link = some pr → ∀ port, port ≠ .zero → run.programRegs port (run.slots t) regPr = pr

/-- Within an instruction that leaves PC to the fetch. -/
structure Within (t : ℕ) (f : Flow) : Prop where
  boundary : run.boundary t = false
  plain : Plain (run.state t).dec.core.op.addr
  front : run.FrontAt memory t f.pc none (wordAt memory f.pc)
  wrpc : run.wrpc t = false
  flow : f = Flow.start f.pc

/-- Before the first line of a branch, which was stalled. -/
structure Waiting (t : ℕ) (f : Flow) (b : Branch) (before : Flow) : Prop where
  boundary : run.boundary t = false
  addr : (run.state t).dec.core.op.addr = b.startAddr
  sequence : before.next = before.pc + 2
  front : run.FrontAt memory t before.next none (wordAt memory before.next)
  wrpc : run.wrpc t = false
  flow : f = before.branch (run.state t).dec.core.op.code (run.programSr (run.slots t)).t
    (run.programRegs .a (run.slots t)) (run.programRegs .b (run.slots t)) b

/-- Behind the first line of a branch that is taken. -/
structure Jumping (t : ℕ) (f : Flow) (b : Branch) (before : Flow) (n : ℕ) : Prop where
  boundary : run.boundary t = false
  addr : (run.state t).dec.core.op.addr = b.startAddr + 1
  sequence : before.next = before.pc + 2
  front : run.FrontAt memory t (if b = .rts then before.next else before.next + 2)
    (if b.delayed then none else some (before.next + 2)) (wordAt memory before.next)
  wrpc : run.wrpc t = true
  slots : run.slots t = n + 1
  issued : run.IssuedBranch b (run.state t).dec.core.op.code n
  taken : b.taken (run.programSr n).t = true
  flow : f = before.branch (run.state t).dec.core.op.code (run.programSr n).t
    (run.programRegs .a n) (run.programRegs .b n) b

/-- Before the third line of a branch without a delay slot. -/
structure Refilling (t : ℕ) (f : Flow) (b : Branch) : Prop where
  boundary : run.boundary t = false
  addr : (run.state t).dec.core.op.addr = b.startAddr + 2
  delayed : b.delayed = false
  front : ∃ word, run.FrontAt memory t f.pc (some f.pc) word
  wrpc : run.wrpc t = false
  flow : f = Flow.start f.pc

/-- The phases of an instruction. Once it is taken up `f` is what comes behind it. -/
inductive Phase (t : ℕ) (f : Flow) : Prop where
  | boundary (h : run.Boundary memory t f)
  | within (h : run.Within memory t f)
  | waiting (b : Branch) (before : Flow) (h : run.Waiting memory t f b before)
  | jumping (b : Branch) (before : Flow) (n : ℕ) (h : run.Jumping memory t f b before n)
  | refilling (b : Branch) (h : run.Refilling memory t f b)

/-- The sequence of instructions from `f` on, as far as it is taken up before clock `t`. -/
noncomputable def flow (f : Flow) : ℕ → Flow
  | 0 => f
  | t + 1 =>
    if run.selects t then
      (flow f t).step (wordAt memory (flow f t).pc) (run.programSr (run.slots t)).t
        (run.programRegs .a (run.slots t)) (run.programRegs .b (run.slots t))
    else flow f t

/-- How many instructions are taken up before clock `t`. -/
def taken (t : ℕ) : ℕ := Nat.count (fun t => run.selects t = true) t

theorem taken_succ (t : ℕ) : run.taken (t + 1) = run.taken t + if run.selects t then 1 else 0 :=
  Nat.count_succ _ t

end Phases

/-! ### One clock -/

section Steps

variable {run : CpuRun} {memory : InstrMemory} {t : ℕ} {f before : Flow}

theorem boundary_succ_of_not_slot (slot : run.slot t = false) :
    run.boundary (t + 1) = run.boundary t := by
  rw [boundary, dec_succ_of_not_slot slot]
  rfl

/-- A line that leaves PC to the fetch, with the word behind it under way or taken. -/
theorem plain_slot (quiet : run.Undisturbed memory) (slot : run.slot t = true)
    (plain : Plain (run.op t).addr) {word : BitVec 16} {pending : Option (BitVec 32)}
    {next : BitVec 32} (front : run.FrontAt memory t next pending word)
    (taken : (pending.map (wordAt memory)).getD word = wordAt memory next)
    (wrpc : run.wrpc t = false) : run.Boundary memory (t + 1) (Flow.start next) ∨
      run.Within memory (t + 1) (Flow.start next) := by
  have line := plain.line
  simp only [plainLine, Bool.and_eq_true, Bool.not_eq_true', beq_iff_eq] at line
  obtain ⟨⟨⟨⟨⟨⟨⟨⟨hdebug, hdelay⟩, hadsel⟩, hpct⟩, hpcf⟩, hisst⟩, hissf⟩, hdist⟩, hdisf⟩ := line
  have issue : ifIssue (microcodeLine (run.op t).addr) (run.tBcc t) =
      incpc (microcodeLine (run.op t).addr) := by
    cases run.tBcc t
    · exact hissf
    · exact hisst
  have hdisp : dispatch (microcodeLine (run.op t).addr) (run.tBcc t) =
      incpc (microcodeLine (run.op t).addr) := by
    cases run.tBcc t
    · exact hdisf
    · exact hdist
  have hpc : wrpcZ (microcodeLine (run.op t).addr) (run.tBcc t) = false := by
    cases run.tBcc t
    · exact hpcf
    · exact hpct
  have front' := front.slot quiet hdebug slot
  have wrpc' := wrpc_succ_of_slot slot
  have boundary' := boundary_succ_of_slot slot
  rw [hdisp] at boundary'
  rw [issue, hadsel, wrpc, taken, if_neg Bool.false_ne_true] at front'
  rw [hpc, Bool.and_false] at wrpc'
  by_cases last : incpc (microcodeLine (run.op t).addr) = true ∧ run.stalled t = false
  · -- the line is issued and ends the instruction
    rw [last.1, last.2] at front' boundary'
    refine .inl ⟨boundary', front', wrpc', ?_, fun _ => rfl, fun _ none => absurd none (Option.some_ne_none _).symm⟩
    rw [delaySlot_succ_of_slot slot last.2, hdelay]
    rfl
  · have more : (incpc (microcodeLine (run.op t).addr) && !run.stalled t) = false := by
      rw [not_and, Bool.not_eq_false] at last
      cases hinc : incpc (microcodeLine (run.op t).addr) with
      | false => rfl
      | true => rw [last hinc]; rfl
    rw [more] at front'
    rw [Bool.and_comm, more] at boundary'
    refine .inr ⟨boundary', ?_, front', wrpc', rfl⟩
    rw [op_succ_of_slot slot]
    cases hstall : run.stalled t with
    | true => exact plain
    | false =>
      rw [hstall, Bool.not_false, Bool.and_true] at more
      exact plain.succ more

/-- The first line of a branch. -/
theorem branch_slot (quiet : run.Undisturbed memory) (slot : run.slot t = true) {b : Branch}
    (addr : (run.op t).addr = b.startAddr) (sequence : before.next = before.pc + 2)
    {word : BitVec 16} {pending : Option (BitVec 32)}
    (front : run.FrontAt memory t before.next pending word)
    (taken : (pending.map (wordAt memory)).getD word = wordAt memory before.next)
    (wrpc : run.wrpc t = false)
    (flow : f = before.branch (run.op t).code (run.programSr (run.slots t)).t
      (run.programRegs .a (run.slots t)) (run.programRegs .b (run.slots t)) b) :
    run.Waiting memory (t + 1) f b before ∨ run.Jumping memory (t + 1) f b before (run.slots t) ∨
      run.Boundary memory (t + 1) f := by
  have line := branchLine b
  have front' := front.slot quiet (addr ▸ line.debug) slot
  have wrpc' := wrpc_succ_of_slot slot
  have boundary' := boundary_succ_of_slot slot
  have op' := op_succ_of_slot slot
  have slots' := slots_succ_of_slot slot
  have t' := taken_tBcc slot addr
  rw [addr, line.dispatch, t'] at boundary'
  rw [addr, line.incpc, line.ifIssue, line.ifadsel, wrpc, taken, t', if_neg Bool.false_ne_true] at front'
  rw [addr, line.wrpcZ, t'] at wrpc'
  cases stall : run.stalled t with
  | true =>
    rw [stall] at front' wrpc' boundary' op'
    simp only [Bool.not_true, Bool.and_false, Bool.false_and, Bool.false_eq_true, if_false, if_true]
      at front' wrpc' boundary' op'
    refine .inl ⟨boundary', op'.symm ▸ addr, sequence, front', wrpc', ?_⟩
    rw [op', slots', programSr_succ_of_stalled slot stall, programRegs_succ_of_stalled slot stall,
      programRegs_succ_of_stalled slot stall]
    exact flow
  | false =>
    rw [stall] at front' wrpc' boundary' op'
    simp only [Bool.not_false, Bool.and_true, Bool.true_and, Bool.false_eq_true, if_false]
      at front' wrpc' boundary' op'
    cases go : b.taken (run.programSr (run.slots t)).t with
    | true =>
      rw [go] at front' wrpc' boundary'
      refine .inr (.inl ⟨boundary', ?_, sequence, ?_, wrpc', slots', ?_, go, ?_⟩)
      · rw [op', ← addr]
        rfl
      · cases hb : decide (b = .rts) <;> cases hd : b.delayed <;> simp_all
      · refine ⟨?_, run.op t, run.tBcc t, run.stalled t, addr, ?_, line_slots slot⟩
        · rw [issued_slots slot, stall, Bool.not_false]
        · rw [op']
          rfl
      · rw [op']
        exact flow
    | false =>
      have unlinked : b.links = false := by
        by_contra links
        rw [taken_of_links (Bool.eq_true_of_not_eq_false links)] at go
        exact absurd go (by decide)
      have returns : b ≠ .rts := by
        rintro rfl
        exact Bool.false_ne_true go.symm
      rw [go] at front' wrpc' boundary'
      have onward : f = Flow.start before.next := by
        rw [flow, Flow.branch, go, unlinked]
        rfl
      rw [onward]
      refine .inr (.inr ⟨boundary', ?_, wrpc', ?_, fun _ => rfl,
        fun _ linked => absurd linked.symm (Option.some_ne_none _)⟩)
      · simpa [returns, Flow.start] using front'
      · rw [delaySlot_succ_of_slot slot stall, addr, line.delayJump]
        rfl

/-- A line that can not be stalled enters the pipeline and writes no register. -/
theorem programRegs_succ_of_unstallable (slot : run.slot t = true)
    (free : unstallable (microcodeLine (run.op t).addr) = true)
    (w : wrregW (microcodeLine (run.op t).addr) = false) (port : ReadPort) :
    run.programRegs port (run.slots t + 1) = run.programRegs port (run.slots t) := by
  refine programRegs_succ_of_free port ?_ ?_
  · rw [line_slots slot]
    simp only [unstallable, Bool.and_eq_true, Bool.not_eq_true'] at free
    exact free.1.1.2
  · rw [line_slots slot]
    exact w

/-- A call writes the address behind its delay slot to PR. -/
theorem link_of_branch (slot : run.slot t = true) {b : Branch} {code : BitVec 16} {n : ℕ}
    (h : run.slots t = n + 1) (issue : run.IssuedBranch b code n) (links : b.links = true)
    (port : ReadPort) : run.programRegs port (n + 1) regPr = (run.state t).data.this.pc := by
  obtain ⟨op, T, stall, addr, -, hline⟩ := issue.line
  have z : (run.slotI n).line.exStall.wrregZ = true := by
    rw [hline, ← links, ← (branchLine b).wrregZ, ← addr]
    rfl
  have pr : (run.slotI n).line.ex.regnumZ = regPr := by
    rw [hline, ← regnumZ_of_links b links op.code, ← addr]
    rfl
  have wrpr : (Cpu.ctrl run.coproDecode (run.state t)).wrpr = true := by
    have ex := (ex1_eq h).2
    rw [issue.issued, if_pos rfl, hline] at ex
    rw [← links, ← (branchLine b).wrprPc, ← addr]
    exact congrArg PipelineExStall.wrprPc ex
  rw [← pr, programRegs_succ_of_wrregZ port issue.issued z, ← h, slotI_slots slot]
  exact if_pos wrpr

variable {bankA bankB : Fin 21 → BitVec 32}

/-- The line that fetches from the target. -/
theorem jump_slot (cleared : run.regs = RegisterFile.reset bankA bankB)
    (quiet : run.Undisturbed memory) (slot : run.slot t = true) {b : Branch} {n : ℕ}
    (h : run.Jumping memory t f b before n) :
    run.Boundary memory (t + 1) f ∨ run.Refilling memory (t + 1) f b := by
  have here : run.op t = (run.state t).dec.core.op := op_of_not_boundary h.boundary
  have addr : (run.op t).addr = b.startAddr + 1 := by rw [here, h.addr]
  have line := jumpLine b
  have go : run.stalled t = false := stalled_of_unstallable (addr ▸ line.unstallable)
  have counter : ¬b = .rts → (run.state t).data.this.pc = before.pc + 4 := by
    intro returns
    rw [h.front.pc, if_neg returns, h.sequence, BitVec.add_assoc]
    rfl
  have target := zbus_of_branch cleared slot h.slots h.issued h.front.calm.ybusOverride0 counter
  have front' := h.front.slot quiet (addr ▸ line.debug) slot
  have wrpc' := wrpc_succ_of_slot slot
  have boundary' := boundary_succ_of_slot slot
  have op' := op_succ_of_slot slot
  rw [addr, line.dispatch, go] at boundary'
  rw [addr, line.ifIssue, line.ifadsel, h.wrpc, go, target] at front'
  rw [addr, line.wrpcZ, Bool.and_false] at wrpc'
  rw [go] at op'
  simp only [Bool.not_false, Bool.and_true, Bool.true_and, if_true] at front' boundary'
  cases delay : b.delayed with
  | true =>
    have flow : f = { before.goOn with
        next := b.target (run.state t).dec.core.op.code before.pc (run.programRegs .a n)
          (run.programRegs .b n)
        inSlot := true
        link := if b.links then some (before.pc + 4) else none } := by
      rw [h.flow, Flow.branch, h.taken, delay]
      rfl
    rw [flow]
    rw [delay] at boundary' front'
    refine .inl ⟨boundary', front', wrpc', ?_,
      fun outside => absurd outside.symm Bool.false_ne_true, ?_⟩
    · rw [delaySlot_succ_of_slot slot go, addr, line.delayJump, delay]
    · intro pr some port _
      cases links : b.links with
      | false =>
        rw [links] at some
        exact absurd some (by simp)
      | true =>
        simp only [links, if_true, Option.some.injEq] at some
        rw [slots_succ_of_slot slot,
          programRegs_succ_of_unstallable slot (addr ▸ line.unstallable) (addr ▸ line.wrregW), h.slots,
          link_of_branch slot h.slots h.issued links, h.front.pc, if_neg (delayed_of_links links).2,
          h.sequence, ← some, BitVec.add_assoc]
        rfl
  | false =>
    have unlinked : b.links = false := by
      by_contra links
      rw [(delayed_of_links (Bool.eq_true_of_not_eq_false links)).1] at delay
      exact absurd delay (by decide)
    have flow : f = Flow.start (b.target (run.state t).dec.core.op.code before.pc
        (run.programRegs .a n) (run.programRegs .b n)) := by
      rw [h.flow, Flow.branch, h.taken, delay, unlinked]
      rfl
    rw [flow]
    rw [delay] at boundary' front'
    refine .inr ⟨boundary', ?_, delay, ⟨_, front'⟩, wrpc', rfl⟩
    rw [op', here, if_neg Bool.false_ne_true]
    show (run.state t).dec.core.op.addr + 1 = _
    rw [h.addr, BitVec.add_assoc]
    rfl

/-- The line that drops the instruction fetched behind the branch. -/
theorem refill_slot (quiet : run.Undisturbed memory) (slot : run.slot t = true) {b : Branch}
    (h : run.Refilling memory t f b) : run.Boundary memory (t + 1) f := by
  have here : run.op t = (run.state t).dec.core.op := op_of_not_boundary h.boundary
  have line := refillLine b h.delayed
  have addr : (run.op t).addr = b.startAddr + 2 := by rw [here, h.addr]
  have plain : Plain (run.op t).addr := by
    rw [addr]
    refine ⟨1, ?_⟩
    rw [plainFor, line.plain, line.incpc]
    rfl
  obtain ⟨word, front⟩ := h.front
  rcases plain_slot quiet slot plain front rfl h.wrpc with next | next
  · rw [h.flow]
    exact next
  · -- the line can not be stalled and ends the branch
    have go : run.stalled t = false := stalled_of_unstallable (addr ▸ line.unstallable)
    have ends := boundary_succ_of_slot slot
    have test := line.plain
    simp only [plainLine, Bool.and_eq_true, beq_iff_eq, line.incpc] at test
    rw [next.boundary, go, addr] at ends
    cases here : run.tBcc t with
    | true =>
      rw [here, test.1.2] at ends
      exact absurd ends (by decide)
    | false =>
      rw [here, test.2] at ends
      exact absurd ends (by decide)

/-- Behind an instruction the next one of the sequence is presented. -/
theorem Boundary.op_eq (h : run.Boundary memory t f) (quiet : run.Undisturbed memory)
    (ordinary : Ordinary (wordAt memory f.pc) f.inSlot) :
    run.op t = DecodeCore.normalOp .rom predecodeRomAddr (wordAt memory f.pc) := by
  have presented : run.op t = DecodeCore.nextOp .rom predecodeRomAddr (run.state t).dec.core
      (Cpu.decoderI (run.state t) (run.clk t)).front := Decoder.romOp_of_boundary h.boundary
  have event : (Cpu.decoderI (run.state t) (run.clk t)).front.eventI.en = false := quiet.event t
  have word : (Cpu.decoderI (run.state t) (run.clk t)).front.ifDr = wordAt memory f.pc := h.front.ifDr
  have slotOk : (f.inSlot && (Cpu.decoderI (run.state t) (run.clk t)).front.illegalDelaySlot) = false := by
    cases inSlot : f.inSlot with
    | false => rfl
    | true => exact h.front.illegalDelaySlot.trans (ordinary.legalInSlot inSlot)
  have legal : (Cpu.decoderI (run.state t) (run.clk t)).front.illegalInstr = false :=
    h.front.illegalInstr.trans ordinary.legal
  have session : (Cpu.decoderI (run.state t) (run.clk t)).front.enterDebug = false := by
    show (run.state t).data.this.enterDebug.getLsbD 0 = false
    rw [h.front.calm.enterDebug]
    rfl
  rw [← h.inSlot] at slotOk
  rw [presented, DecodeCore.nextOp, DecodeCore.eventTaken, event, legal, session, word, Bool.or_false,
    slotOk]
  simp

theorem Phase.of_plain (h : run.Boundary memory t f ∨ run.Within memory t f) : run.Phase memory t f := by
  rcases h with h | h
  · exact .boundary h
  · exact .within h

theorem Phase.of_branch {b : Branch} {n : ℕ} (h : run.Waiting memory t f b before ∨
    run.Jumping memory t f b before n ∨ run.Boundary memory t f) : run.Phase memory t f := by
  rcases h with h | h | h
  · exact .waiting b before h
  · exact .jumping b before n h
  · exact .boundary h

/-- The instruction is taken up. -/
theorem boundary_slot (quiet : run.Undisturbed memory) (slot : run.slot t = true)
    (h : run.Boundary memory t f) (ordinary : Ordinary (wordAt memory f.pc) f.inSlot) :
    run.Phase memory (t + 1) (f.step (wordAt memory f.pc) (run.programSr (run.slots t)).t
      (run.programRegs .a (run.slots t)) (run.programRegs .b (run.slots t))) := by
  have op := h.op_eq quiet ordinary
  have start := start_of_instruction _ ordinary.instruction ordinary.notSystem
  have addr : (run.op t).addr = predecodeRomAddr (wordAt memory f.pc) := by
    rw [op]
    rfl
  rw [Flow.step]
  cases hb : Branch.ofCode (wordAt memory f.pc) with
  | none =>
    rw [hb] at start
    exact .of_plain (plain_slot quiet slot (addr ▸ start.1) h.front rfl h.wrpc)
  | some b =>
    rw [hb] at start
    refine .of_branch (branch_slot quiet slot (addr.trans start)
      (h.sequence (ordinary.not_inSlot hb)) h.front rfl h.wrpc ?_)
    rw [op]
    rfl

/-! ### Clocks without a slot -/

theorem Boundary.wait (h : run.Boundary memory t f) (quiet : run.Undisturbed memory)
    (ordinary : Ordinary (wordAt memory f.pc) f.inSlot) (slot : run.slot t = false) :
    run.Boundary memory (t + 1) f := by
  have op := h.op_eq quiet ordinary
  have start := start_of_instruction _ ordinary.instruction ordinary.notSystem
  have line : debug (microcodeLine (run.op t).addr) = false := by
    rw [op]
    show debug (microcodeLine (predecodeRomAddr (wordAt memory f.pc))) = false
    cases hb : Branch.ofCode (wordAt memory f.pc) with
    | none =>
      rw [hb] at start
      exact start.1.debug
    | some b =>
      rw [hb] at start
      rw [start]
      exact (branchLine b).debug
  constructor
  case boundary => rw [boundary_succ_of_not_slot slot, h.boundary]
  case front => exact h.front.wait quiet line slot
  case wrpc => rw [wrpc_succ_of_not_slot slot, h.wrpc]
  case inSlot => rw [dec_succ_of_not_slot slot, h.inSlot]
  case sequence => exact h.sequence
  case link => rw [slots_succ_of_not_slot slot]; exact h.link

theorem Within.wait (h : run.Within memory t f) (quiet : run.Undisturbed memory)
    (slot : run.slot t = false) : run.Within memory (t + 1) f := by
  have line : debug (microcodeLine (run.op t).addr) = false := by
    rw [op_of_not_boundary h.boundary]
    exact h.plain.debug
  constructor
  case boundary => rw [boundary_succ_of_not_slot slot, h.boundary]
  case plain => rw [dec_succ_of_not_slot slot]; exact h.plain
  case front => exact h.front.wait quiet line slot
  case wrpc => rw [wrpc_succ_of_not_slot slot, h.wrpc]
  case flow => exact h.flow

theorem Waiting.wait {b : Branch} (h : run.Waiting memory t f b before)
    (quiet : run.Undisturbed memory) (slot : run.slot t = false) :
    run.Waiting memory (t + 1) f b before := by
  have line : debug (microcodeLine (run.op t).addr) = false := by
    rw [op_of_not_boundary h.boundary, h.addr]
    exact (branchLine b).debug
  constructor
  case boundary => rw [boundary_succ_of_not_slot slot, h.boundary]
  case addr => rw [dec_succ_of_not_slot slot, h.addr]
  case sequence => exact h.sequence
  case front => exact h.front.wait quiet line slot
  case wrpc => rw [wrpc_succ_of_not_slot slot, h.wrpc]
  case flow => rw [dec_succ_of_not_slot slot, slots_succ_of_not_slot slot, ← h.flow]

theorem Jumping.wait {b : Branch} {n : ℕ} (h : run.Jumping memory t f b before n)
    (quiet : run.Undisturbed memory) (slot : run.slot t = false) :
    run.Jumping memory (t + 1) f b before n := by
  have line : debug (microcodeLine (run.op t).addr) = false := by
    rw [op_of_not_boundary h.boundary, h.addr]
    exact (jumpLine b).debug
  constructor
  case boundary => rw [boundary_succ_of_not_slot slot, h.boundary]
  case addr => rw [dec_succ_of_not_slot slot, h.addr]
  case sequence => exact h.sequence
  case front => exact h.front.wait quiet line slot
  case wrpc => rw [wrpc_succ_of_not_slot slot, h.wrpc]
  case slots => rw [slots_succ_of_not_slot slot, h.slots]
  case issued => rw [dec_succ_of_not_slot slot]; exact h.issued
  case taken => exact h.taken
  case flow => rw [dec_succ_of_not_slot slot, ← h.flow]

theorem Refilling.wait {b : Branch} (h : run.Refilling memory t f b)
    (quiet : run.Undisturbed memory) (slot : run.slot t = false) :
    run.Refilling memory (t + 1) f b := by
  have line : debug (microcodeLine (run.op t).addr) = false := by
    rw [op_of_not_boundary h.boundary, h.addr]
    exact debug_of_plainLine (refillLine b h.delayed).plain
  obtain ⟨word, front⟩ := h.front
  constructor
  case boundary => rw [boundary_succ_of_not_slot slot, h.boundary]
  case addr => rw [dec_succ_of_not_slot slot, h.addr]
  case delayed => exact h.delayed
  case front => exact ⟨word, front.wait quiet line slot⟩
  case wrpc => rw [wrpc_succ_of_not_slot slot, h.wrpc]
  case flow => exact h.flow

/-! ### Runs -/

/-- One clock. -/
theorem Phase.step (cleared : run.regs = RegisterFile.reset bankA bankB)
    (quiet : run.Undisturbed memory) (h : run.Phase memory t f)
    (ordinary : Ordinary (wordAt memory f.pc) f.inSlot) :
    run.Phase memory (t + 1) (if run.selects t then
      f.step (wordAt memory f.pc) (run.programSr (run.slots t)).t
        (run.programRegs .a (run.slots t)) (run.programRegs .b (run.slots t)) else f) := by
  cases slot : run.slot t with
  | false =>
    rw [selects, slot, Bool.false_and, if_neg Bool.false_ne_true]
    cases h with
    | boundary h => exact .boundary (h.wait quiet ordinary slot)
    | within h => exact .within (h.wait quiet slot)
    | waiting b before h => exact .waiting b before (h.wait quiet slot)
    | jumping b before n h => exact .jumping b before n (h.wait quiet slot)
    | refilling b h => exact .refilling b (h.wait quiet slot)
  | true =>
    rw [selects, slot, Bool.true_and]
    cases h with
    | boundary h =>
      rw [h.boundary, if_pos rfl]
      exact boundary_slot quiet slot h ordinary
    | within h =>
      rw [h.boundary, if_neg Bool.false_ne_true, h.flow]
      have here : run.op t = (run.state t).dec.core.op := op_of_not_boundary h.boundary
      exact .of_plain (plain_slot quiet slot (here ▸ h.plain) h.front rfl h.wrpc)
    | waiting b before h =>
      rw [h.boundary, if_neg Bool.false_ne_true]
      have here : run.op t = (run.state t).dec.core.op := op_of_not_boundary h.boundary
      exact .of_branch (branch_slot quiet slot (here ▸ h.addr) h.sequence h.front rfl h.wrpc
        (here ▸ h.flow))
    | jumping b before n h =>
      rw [h.boundary, if_neg Bool.false_ne_true]
      rcases jump_slot cleared quiet slot h with next | next
      · exact .boundary next
      · exact .refilling b next
    | refilling b h =>
      rw [h.boundary, if_neg Bool.false_ne_true]
      exact .boundary (refill_slot quiet slot h)

end Steps

end CpuRun

end JCore
