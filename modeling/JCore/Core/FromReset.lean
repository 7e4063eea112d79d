import JCore.Core.Program
import JCore.Isa.Units

/-!
# Programs from the reset on

The lines of the reset read two words of the data memory: where the program begins, and
its stack pointer. From there on the CPU carries out the program, an instruction at a
time: what a clock that takes up an instruction shows of PC, the registers, SR and the
memory is what the instructions before it leave.

## Main definitions

* `Machine.booted`: the lines of the reset
* `Arch.start`: the state that the program begins in
* `CpuRun.Shows`: what the CPU shows of a machine

## Main results

* `CpuRun.program`: the CPU carries out the program
-/

namespace JCore

open Datapath DecodeTable RegisterFile

/-! ### The lines of the reset -/

namespace Machine

/-- What the `k`th line of the reset does: a temporary is cleared, the stack pointer is
loaded from behind the address in it, and VBR becomes the sum modulo 2 of the two copies
of the last register. -/
def bootLine (M : Machine) : ℕ → Machine
  | 1 => { M with regs := M.regs.write (some (0b10011#5, 0)) }
  | 2 =>
    { M with
      regs := M.regs.write (some (0b01111#5, loadAt M.mem .long (M.regs .a 0b10011#5 + 4))) }
  | 4 =>
    { M with
      regs := M.regs.write (some (0b10001#5, M.regs .a 0b10100#5 ^^^ M.regs .b 0b10100#5)) }
  | _ => M

/-- The first `k` lines of the reset. -/
def booted (M : Machine) : ℕ → Machine
  | 0 => M
  | k + 1 => (booted M k).bootLine k

end Machine

/-- A line of the reset writes something or is idle; the fifth one takes PC from the W
bus. -/
theorem line_startOp : ∀ k < 6,
    (idle (microcodeLine (startOp.atLine k).addr) = true ∧ k ≠ 1 ∧ k ≠ 2 ∧ k ≠ 4) ∨
      (sequential (microcodeLine (startOp.atLine k).addr) = true ∧ (k = 1 ∨ k = 2 ∨ k = 4)) := by
  decide +kernel

theorem atLine_startOp : ∀ k < 5, startOp.atLine (k + 1) = startOp.atLine 5 → k = 4 := by
  decide +kernel

theorem ofRom_startOp (t : Bool) :
    Line.ofRom (microcodeLine (startOp.atLine 1).addr) t =
      { zSel := .selYbus, imm := 15, numY := 4, numZ := 5, wrregZ := true, maIssue := true,
        size := .long, addrSel := .selZbus } ∧
    Line.ofRom (microcodeLine (startOp.atLine 2).addr) t =
      { xSel := .selReg, numX := 6, zSel := .selArith, iny := .selImm, numY := 2, numW := 7,
        wrregW := true, maIssue := true, size := .long, addrSel := .selZbus } ∧
    Line.ofRom (microcodeLine (startOp.atLine 4).addr) t =
      { xSel := .selReg, ySel := .selReg, numY := 1, numZ := 3, wrregZ := true,
        logicFunc := .logicXor } := by
  cases t <;> decide +kernel

/-- Each of them does to the machine what it is to do. -/
theorem exec_startOp {k : ℕ} (h : k = 1 ∨ k = 2 ∨ k = 4) (t : Bool) (pc : BitVec 32) (M : Machine) :
    (Line.ofRom (microcodeLine (startOp.atLine k).addr) t).exec (startOp.atLine k).code pc M =
      M.bootLine k := by
  obtain ⟨one, two, four⟩ := ofRom_startOp t
  rcases h with rfl | rfl | rfl
  · rw [one]
    rfl
  · have sum : ∀ x : BitVec 32, (arithUnit x 4 .add false).extractLsb' 0 32 = x + 4 :=
      fun x => arithUnit_add_zero x 4
    rw [two]
    apply Machine.ext
    · exact congrArg (fun a => M.regs.write (some (0b01111#5, loadAt M.mem .long a))) (sum _)
    · rfl
    · rfl
  · rw [four]
    rfl

/-- The registers, SR and the memory at the reset. -/
def Machine.ofReset (regs : RegisterFile 5 21 32) (bytes : ByteMemory) : Machine where
  regs := regs.held
  sr := (Datapath.reset regs).this.sr
  mem := bytes

/-- The program begins at the address in the first word of the memory. -/
def Arch.start (M : Machine) : Arch where
  flow := Flow.start (loadAt M.mem .long 0)
  machine := M.booted 6

namespace CpuRun

variable (run : CpuRun) (memory : InstrMemory) (bytes : ByteMemory)

/-- The state of the architecture after `n` instructions. -/
def arch (n : ℕ) : Arch := (Arch.step memory)^[n] (.start (.ofReset run.regs bytes))

/-- What the CPU shows of a machine in the slot behind clock `t`: the ports read its
registers, except one that a load reaches later, and SR and the memory are its own, SR
unless it is being loaded. -/
structure Shows (t : ℕ) (M : Machine) : Prop where
  regs : ∀ u, run.slot u = true → run.slots u = run.slots t + 1 → ∀ port r, PortAddr 21 port r →
    ((run.state t).dec.pipeline.wb1Stall.wrregW = true →
      (run.state t).dec.pipeline.wb1.regnumW ≠ r) →
    (run.state u).data.regs.dout
      (wbPipe (run.state u).data.this (Cpu.ctrl run.coproDecode (run.state u))) port r = M.regs port r
  sr : (run.state t).dec.pipeline.wb1Stall.wrsrW = false →
    (run.state t).dec.pipeline.wb2Stall.wrsrW = false → ∀ u, run.slots u = run.slots t + 1 →
    (run.state u).data.this.sr = M.sr
  mem : ∀ u, run.slots u = run.slots t + 1 → run.settled bytes u = M.mem

variable {run memory bytes} {t k : ℕ}

theorem taken_of_none (none : ∀ u < t, run.selects u = false) : run.taken t = 0 := by
  refine Nat.count_iff_forall_not.mpr fun u hu => ?_
  rw [none u hu]
  exact Bool.false_ne_true

theorem shows_machine {bankA bankB : Fin 21 → BitVec 32}
    (cleared : run.regs = RegisterFile.reset bankA bankB) :
    run.Shows bytes t (run.machine bytes (run.slots t)) := by
  constructor
  case regs =>
    intro u here next port r addr load
    refine dout_eq cleared here next port addr ?_
    rw [← regPath_state]
    exact load
  case sr =>
    intro idle1 idle2 u next
    have now : Cpu.srPath (run.state t) = _ := srPath_eq t
    have later : Cpu.srPath (run.state u) = _ := srPath_eq u
    have inOrder := SrPath.inOrder_atSlot run.coproDecode run.srStart run.srInputs rfl (run.slots t)
    have sr := inOrder.idle (by rw [SrPath.load1, ← now]; exact idle1)
      (by rw [SrPath.load2, ← now]; exact idle2)
    rw [← next, ← later] at sr
    exact sr
  case mem =>
    intro u next
    rw [settled_eq, next, Nat.add_sub_cancel]
    rfl

/-! ### Before the first instruction -/

/-- The last line of the reset ends with a boundary. -/
theorem Starting.last (h : run.Starting t 5) (slot : run.slot t = true) :
    run.boundary (t + 1) = true := by
  have line := h.line (by decide)
  have disp : dispatch (microcodeLine (run.op t).addr) (run.tBcc t) = (startLine 5).dispatch := by
    rw [← line]
    rfl
  have ends : (startLine 5).dispatch = true := by decide +kernel
  rw [boundary_succ_of_slot slot, disp, ends, h.not_stalled (by decide)]
  rfl

/-- Before the first instruction nothing was stored. -/
structure Untouched (run : CpuRun) (bytes : ByteMemory) (t : ℕ) : Prop where
  stage : (∃ k < 6, run.Starting t k) ∨ run.boundary t = true
  memory : run.memory bytes t = bytes
  reads : (run.dataO t).en = true → (run.dataO t).wr = false

theorem reads_startPipeline : ∀ k < 6, (startPipeline k).mem.issue = true →
    (startPipeline k).mem.wr = false := by
  decide +kernel

theorem untouched_of_none (none : ∀ u < t, run.selects u = false) : run.Untouched bytes t := by
  induction t with
  | zero => exact ⟨.inl ⟨0, by decide, starting_zero⟩, rfl, fun en => absurd en Bool.false_ne_true⟩
  | succ t ih =>
    obtain ⟨stage, mem, reads⟩ := ih fun u hu => none u (Nat.lt_succ_of_lt hu)
    have still : ((run.dataO t).en && (run.dataO t).wr) = false := by
      cases en : (run.dataO t).en with
      | false => rfl
      | true => rw [reads en, Bool.and_false]
    have mem' : run.memory bytes (t + 1) = bytes := by
      rw [CpuRun.memory, still, Bool.false_and, if_neg Bool.false_ne_true, mem]
    cases slot : run.slot t with
    | false =>
      refine ⟨?_, mem', ?_⟩
      · rcases stage with ⟨k, small, h⟩ | h
        · exact .inl ⟨k, small, h.wait slot⟩
        · exact .inr (by rw [boundary_succ_of_not_slot slot, h])
      · rw [dataO_succ_of_not_slot slot]
        split
        · exact fun en => absurd en Bool.false_ne_true
        · exact reads
    | true =>
      rcases stage with ⟨k, small, h⟩ | h
      · refine ⟨?_, mem', ?_⟩
        · rcases Nat.lt_succ_iff_lt_or_eq.mp small with early | rfl
          · exact .inl ⟨k + 1, Nat.succ_lt_succ early, h.slot early slot⟩
          · exact .inr (h.last slot)
        · obtain ⟨en, wr⟩ := dataO_succ_of_slot slot
          have pipeline : run.mem t = (startPipeline k).mem := by
            rw [← h.pipeline]
            rfl
          intro busy
          rw [en] at busy
          rw [wr busy, pipeline]
          exact reads_startPipeline k small (pipeline ▸ busy)
      · have taken := none t (Nat.lt_succ_self t)
        rw [selects, slot, h] at taken
        exact absurd taken.symm Bool.false_ne_true

/-- The word at address 0 is what the reset reads. -/
theorem vector_of_backed (backed : run.Backed bytes) : run.Vector (loadAt bytes .long 0) := by
  intro t none en addr ack
  have untouched : run.Untouched bytes t := untouched_of_none fun u hu => none u hu.le
  rw [backed t en (untouched.reads en) ack, untouched.memory, addr]
  rfl

/-- One slot of the reset. -/
theorem Starting.machine_slot {bankA bankB : Fin 21 → BitVec 32}
    (cleared : run.regs = RegisterFile.reset bankA bankB) (backed : run.Backed bytes)
    (debug : ∀ t, (run.clk t).debugI.en = false) (h : run.Starting t k) (small : k < 6)
    (slot : run.slot t = true) (on : run.GoesOn (run.slots t)) :
    run.machine bytes (run.slots t + 1) = (run.machine bytes (run.slots t)).bootLine k := by
  rcases line_startOp k small with ⟨line, no1, no2, no4⟩ | ⟨line, writes⟩
  · rw [← h.presented] at line
    rw [machine_of_idle slot line on]
    exact (Machine.bootLine.eq_4 _ _ no1 no2 no4).symm
  · rw [← exec_startOp writes, ← h.presented]
    rw [← h.presented] at line
    exact machine_of_issued cleared backed debug slot (h.not_stalled small)
      (sequential_of_test line) on

/-! ### Runs -/

/-- The stages of a run with the machine of program order. -/
inductive Course (run : CpuRun) (memory : InstrMemory) (bytes : ByteMemory) (t : ℕ) : Prop where
  | booting (k : ℕ) (h : run.Booting memory (loadAt bytes .long 0) t k)
      (none : ∀ u < t, run.selects u = false)
      (state : run.machine bytes (run.slots t) = (Machine.ofReset run.regs bytes).booted k)
  | entering (h : run.Entering memory (loadAt bytes .long 0) t) (none : ∀ u < t, run.selects u = false)
      (state : run.machine bytes (run.slots t) = (Machine.ofReset run.regs bytes).booted 5)
  | going (h : run.Tracks memory bytes t (run.arch memory bytes (run.taken t)))

section Runs

variable {bankA bankB : Fin 21 → BitVec 32} (cleared : run.regs = RegisterFile.reset bankA bankB)
  (backed : run.Backed bytes) (quiet : run.Undisturbed memory)
include cleared backed quiet

theorem Course.step (h : run.Course memory bytes t) (on : run.GoesOn (run.slots t))
    (carried : Carried (wordAt memory (run.arch memory bytes (run.taken t)).flow.pc)
      (run.arch memory bytes (run.taken t)).flow.inSlot) : run.Course memory bytes (t + 1) := by
  have vector := vector_of_backed backed
  cases h with
  | booting k h none state =>
    have none' := h.starting.not_selects none
    cases slot : run.slot t with
    | false =>
      refine .booting k (h.wait quiet vector none slot) none' ?_
      rw [slots_succ_of_not_slot slot, state]
    | true =>
      have state' := h.starting.machine_slot cleared backed quiet.debug (Nat.lt_succ_of_lt h.small)
        slot on
      rw [state, ← slots_succ_of_slot slot] at state'
      rcases h.slot quiet vector none slot with ⟨-, next⟩ | next
      · exact .booting (k + 1) next none' state'
      · have last : k = 4 := atLine_startOp k h.small
          ((h.starting.slot h.small slot).op.symm.trans next.starting.op)
        subst last
        exact .entering next none' state'
  | entering h none state =>
    have none' := h.starting.not_selects none
    cases slot : run.slot t with
    | false =>
      refine .entering (h.wait quiet slot) none' ?_
      rw [slots_succ_of_not_slot slot, state]
    | true =>
      have state' := h.starting.machine_slot cleared backed quiet.debug (by decide) slot on
      rw [state, ← slots_succ_of_slot slot] at state'
      have first : run.taken (t + 1) = 0 := taken_of_none none'
      refine .going ?_
      rw [first]
      rcases h.slot quiet slot with next | next
      · exact .boundary next state'
      · exact absurd (next.boundary.symm.trans (h.starting.last slot)) Bool.false_ne_true
  | going h =>
    have next := h.step cleared backed quiet on carried
    refine .going ?_
    rw [taken_succ]
    cases taken : run.selects t with
    | false =>
      rw [taken] at next
      exact next
    | true =>
      rw [taken, if_pos rfl] at next
      rw [if_pos rfl, arch, Function.iterate_succ_apply']
      exact next

omit cleared backed quiet in
theorem slot_zero : run.slot 0 = true := rfl

theorem course_succ (on : run.GoesOn (run.slots t))
    (carried : ∀ n ≤ run.taken t, Carried (wordAt memory (run.arch memory bytes n).flow.pc)
      (run.arch memory bytes n).flow.inSlot) : run.Course memory bytes (t + 1) := by
  induction t with
  | zero =>
    have state := starting_zero.machine_slot cleared backed quiet.debug (by decide) slot_zero on
    refine .booting 1 (booting_one quiet) (fun u hu => ?_) state
    obtain rfl := Nat.lt_one_iff.mp hu
    rfl
  | succ t ih =>
    have slots : run.slots t ≤ run.slots (t + 1) := Nat.count_monotone _ (Nat.le_succ t)
    have taken : run.taken t ≤ run.taken (t + 1) := Nat.count_monotone _ (Nat.le_succ t)
    have before := ih (on.mono slots) fun n hn => carried n (hn.trans taken)
    exact before.step cleared backed quiet on (carried _ le_rfl)

end Runs

/-- A clock that takes up an instruction lies behind the one before it, and what the lines
so far leave is the state of the architecture. -/
theorem boundary_of_selects {bankA bankB : Fin 21 → BitVec 32}
    (cleared : run.regs = RegisterFile.reset bankA bankB) (quiet : run.Undisturbed memory)
    (backed : run.Backed bytes) (on : run.GoesOn (run.slots t))
    (carried : ∀ n ≤ run.taken t, Carried (wordAt memory (run.arch memory bytes n).flow.pc)
      (run.arch memory bytes n).flow.inSlot)
    (taken : run.selects t = true) :
    run.Boundary memory t (run.arch memory bytes (run.taken t)).flow ∧
      run.machine bytes (run.slots t) = (run.arch memory bytes (run.taken t)).machine := by
  have here : run.slot t = true ∧ run.boundary t = true := by
    rw [selects, Bool.and_eq_true] at taken
    exact taken
  obtain ⟨-, boundary⟩ := here
  obtain _ | t := t
  · exact absurd boundary Bool.false_ne_true
  have slots : run.slots t ≤ run.slots (t + 1) := Nat.count_monotone _ (Nat.le_succ t)
  have before : run.taken t ≤ run.taken (t + 1) := Nat.count_monotone _ (Nat.le_succ t)
  cases course_succ cleared backed quiet (on.mono slots) fun n hn => carried n (hn.trans before) with
  | booting k h none => exact absurd (h.starting.boundary.symm.trans boundary) Bool.false_ne_true
  | entering h none => exact absurd (h.starting.boundary.symm.trans boundary) Bool.false_ne_true
  | going h =>
    cases h with
    | boundary h state => exact ⟨h, state⟩
    | within h => exact absurd (h.boundary.symm.trans boundary) Bool.false_ne_true
    | waiting b before h => exact absurd (h.boundary.symm.trans boundary) Bool.false_ne_true
    | jumping b before n h => exact absurd (h.boundary.symm.trans boundary) Bool.false_ne_true
    | refilling b h => exact absurd (h.boundary.symm.trans boundary) Bool.false_ne_true

/-- From the reset on, for every program of such instructions, every stall and every
latency of the memories: a clock that takes up an instruction takes up the one that the
architecture is at, and shows the state that the instructions before it leave when they
are carried out one after the other. -/
theorem program (run : CpuRun) (memory : InstrMemory) (bytes : ByteMemory)
    {bankA bankB : Fin 21 → BitVec 32} (cleared : run.regs = RegisterFile.reset bankA bankB)
    (quiet : run.Undisturbed memory) (backed : run.Backed bytes) (t : ℕ)
    (on : run.GoesOn (run.slots t))
    (carried : ∀ n ≤ run.taken t, Carried (wordAt memory (run.arch memory bytes n).flow.pc)
      (run.arch memory bytes n).flow.inSlot)
    (taken : run.selects t = true) :
    let a := run.arch memory bytes (run.taken t)
    run.op t = DecodeCore.normalOp .rom predecodeRomAddr (wordAt memory a.flow.pc) ∧
      (run.state t).data.this.pc = a.flow.next ∧ run.Shows bytes t a.machine := by
  intro a
  obtain ⟨h, state⟩ := boundary_of_selects cleared quiet backed on carried taken
  refine ⟨h.op_eq quiet (carried _ le_rfl).toOrdinary, h.front.pc, ?_⟩
  rw [← state]
  exact shows_machine cleared

/-! ### A sample -/

section Sample

open Closed

theorem carried_sample : ∀ n < 10,
    Carried (wordAt sampleProgram (sampleRun.arch sampleProgram sampleBytes n).flow.pc)
      (sampleRun.arch sampleProgram sampleBytes n).flow.inSlot := by
  have words : ∀ n < 10,
      let flow := (sampleRun.arch sampleProgram sampleBytes n).flow
      (isInstruction (wordAt sampleProgram flow.pc) = true ∧
        isSystem (wordAt sampleProgram flow.pc) = false ∧
        checkIllegalInstruction (wordAt sampleProgram flow.pc) = false ∧
        (flow.inSlot = true → checkIllegalDelaySlot (wordAt sampleProgram flow.pc) = false)) ∧
      (Branch.ofCode (wordAt sampleProgram flow.pc) = none →
        sequentialFor 4 (predecodeRomAddr (wordAt sampleProgram flow.pc)) = true) := by
    decide +kernel
  intro n small
  obtain ⟨⟨instruction, notSystem, legal, legalInSlot⟩, lines⟩ := words n small
  exact { toOrdinary := ⟨instruction, notSystem, legal, legalInSlot⟩, sequential := lines }

/-- Behind the call, the store and the load, the branch with its slot and the copy of PR
at its target, the ports show what they left. -/
theorem program_sample :
    let ports := (sampleRun.state 19).data.regs.dout
      (wbPipe (sampleRun.state 19).data.this (Cpu.ctrl sampleRun.coproDecode (sampleRun.state 19)))
    sampleRun.selects 18 = true ∧ ports .a 1 = 6 ∧ ports .b 2 = 9 ∧ ports .a 3 = 0x106 ∧
      sampleRun.settled sampleBytes 19 0x7ff = 6 := by
  intro ports
  have taken : sampleRun.selects 18 = true := by decide +kernel
  have few : sampleRun.taken 18 = 9 := by decide +kernel
  have next : sampleRun.slot 19 = true ∧ sampleRun.slots 19 = sampleRun.slots 18 + 1 := by
    decide +kernel
  have noLoad : (sampleRun.state 18).dec.pipeline.wb1Stall.wrregW = false := by decide +kernel
  have left : (sampleRun.arch sampleProgram sampleBytes 9).machine.regs .a 1 = 6 ∧
      (sampleRun.arch sampleProgram sampleBytes 9).machine.regs .b 2 = 9 ∧
      (sampleRun.arch sampleProgram sampleBytes 9).machine.regs .a 3 = 0x106 ∧
      (sampleRun.arch sampleProgram sampleBytes 9).machine.mem 0x7ff = 6 := by decide +kernel
  have shows := (program sampleRun sampleProgram sampleBytes rfl undisturbed_run backed_run 18
    ⟨30, by decide +kernel⟩ (fun n le => carried_sample n (by omega)) taken).2.2
  rw [few] at shows
  generalize (sampleRun.arch sampleProgram sampleBytes 9).machine = M at left shows
  obtain ⟨one, two, three, stored⟩ := left
  have reads : ∀ port r, PortAddr 21 port r → ports port r = M.regs port r := fun port r addr =>
    shows.regs 19 next.1 next.2 port r addr fun load => absurd (noLoad.symm.trans load) Bool.false_ne_true
  refine ⟨taken, (reads .a 1 ?_).trans one, (reads .b 2 ?_).trans two, (reads .a 3 ?_).trans three,
    (congrFun (shows.mem 19 next.2) _).trans stored⟩
  · exact ⟨by decide, nofun⟩
  · exact ⟨by decide, nofun⟩
  · exact ⟨by decide, nofun⟩

end Sample

end CpuRun

end JCore
