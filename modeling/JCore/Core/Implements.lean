import JCore.Core.FromReset
import JCore.Isa.Instr

/-!
# The CPU and its instruction set

A program in the instruction set is a sequence of states, one instruction each: nothing
in it knows of microcode, of temporary registers, of the pipeline or of the buses. The
CPU carries it out.

## Main definitions

* `Isa`, `Isa.step`: a program between two instructions, and the next one

## Main results

* `Isa.step_simulated`: one instruction, and its microcode line by line
* `CpuRun.implements`: the CPU from the reset on
-/

namespace JCore

open Datapath DecodeTable RegisterFile

/-! ### Programs -/

/-- What a program sees between two instructions, and the next one. -/
structure Isa where
  flow : Flow
  state : IsaState

namespace Isa

variable (memory : InstrMemory)

/-- The next instruction, if it is one of the instruction set that may stand where it
does. -/
def step (a : Isa) : Option Isa :=
  let code := wordAt memory a.flow.pc
  match Branch.ofCode code with
  | some b =>
    if a.flow.inSlot then none
    else
      some
        { flow := a.flow.branch code a.state.sr.t a.state.regs a.state.regs b
          state := if b.links then a.state.set regPr (a.flow.pc + 4) else a.state }
  | none =>
    (Instr.ofCode code).map fun instr =>
      { flow := a.flow.goOn, state := instr.exec code (a.flow.next + 2) a.state }

/-- The first `n` instructions. -/
def steps (start : Isa) : ℕ → Option Isa
  | 0 => some start
  | n + 1 => (steps start n).bind (step memory)

/-- The reset leaves the stack pointer in register 15 and clears VBR; the program begins
at the address in the first word of the memory. -/
def ofReset (bank : Fin 21 → BitVec 32) (bytes : ByteMemory) : Isa where
  flow := Flow.start (loadAt bytes .long 0)
  state :=
    (({ regs := fun r => bank (toRegIndex r), sr := datapathReset.sr, mem := bytes } : IsaState).set
      0b01111#5 (loadAt bytes .long 4)).set regVbr 0

end Isa

/-- The architecture is in the state that the program sees. -/
structure Arch.Simulates (a : Arch) (i : Isa) : Prop where
  flow : a.flow = i.flow
  machine : a.machine.Agrees i.state

theorem sequentialFor_startAddr (instr : Instr) : sequentialFor 4 instr.startAddr = true := by
  cases instr with
  | reg instr => cases instr <;> decide +kernel
  | mem instr =>
    rcases instr with ⟨⟨⟩⟩ | ⟨⟨⟩⟩ | ⟨⟨⟩⟩ | _ | ⟨⟨⟩⟩ | ⟨⟨⟩⟩ | ⟨⟨⟩⟩ | ⟨⟨⟩⟩ | ⟨⟨⟩⟩ | _ | ⟨⟨⟩⟩ | ⟨⟨⟩⟩ | _ |
      _ | ⟨⟨⟩⟩ | ⟨⟨⟩⟩ | _ | _ | _ | ⟨⟨⟩⟩ <;> decide +kernel

/-! ### One instruction -/

section Step

variable {memory : InstrMemory} {a : Arch} {i i' : Isa} {M : Machine} {S : IsaState}

theorem target_agrees (h : M.Agrees S) (b : Branch) (code : BitVec 16) (pc : BitVec 32) :
    b.target code pc (M.regs .a) (M.regs .b) = b.target code pc S.regs S.regs := by
  have n : M.regs .a (Branch.regN code) = S.regs (Branch.regN code) := h.aN
  have n' : M.regs .b (Branch.regN code) = S.regs (Branch.regN code) := h.bN
  have pr : M.regs .b regPr = S.regs regPr := h.b (by decide)
  cases b <;> simp only [Branch.target, n, n', pr]

theorem link_agrees (h : M.Agrees S) (b : Branch) (pc : BitVec 32) :
    (M.link b pc).Agrees (if b.links then S.set regPr (pc + 4) else S) := by
  rw [Machine.link]
  cases b.links with
  | true => exact h.set rfl
  | false => exact h

/-- The microcode of the next instruction simulates it. -/
theorem Isa.step_simulated (h : a.Simulates i) (next : i.step memory = some i') :
    Carried (wordAt memory a.flow.pc) a.flow.inSlot ∧ (a.step memory).Simulates i' := by
  obtain ⟨flow, machine⟩ := h
  rw [Isa.step, ← flow] at next
  cases branch : Branch.ofCode (wordAt memory a.flow.pc) with
  | some b =>
    rw [branch] at next
    cases slot : a.flow.inSlot with
    | true =>
      rw [slot] at next
      exact absurd next nofun
    | false =>
      simp only [slot, Bool.false_eq_true, if_false, Option.some.injEq] at next
      subst next
      refine ⟨⟨ordinary_of_branch branch, fun none => ?_⟩, ?_, ?_⟩
      · rw [branch] at none
        exact absurd none nofun
      · show a.flow.step _ _ _ _ = _
        rw [Flow.step, branch]
        show a.flow.branch _ _ _ _ b = _
        rw [Flow.branch, Flow.branch, target_agrees machine, machine.sr]
      · rw [Arch.step, branch]
        exact link_agrees machine b _
  | none =>
    rw [branch] at next
    simp only [Option.map_eq_some_iff] at next
    obtain ⟨instr, word, rfl⟩ := next
    obtain ⟨-, start, ordinary⟩ := Instr.start_of_code word
    refine ⟨⟨ordinary _, fun _ => ?_⟩, ?_, ?_⟩
    · rw [start]
      exact sequentialFor_startAddr instr
    · show a.flow.step _ _ _ _ = _
      rw [Flow.step, branch]
    · rw [Arch.step, branch, start]
      exact instr.finish_agrees _ _ machine

end Step

/-! ### Runs -/

/-- The reset leaves what the program begins with. -/
theorem simulates_start {bank : Fin 21 → BitVec 32} (zero : bank 0 = 0) (bytes : ByteMemory) :
    (Arch.start (.ofReset (RegisterFile.reset bank bank) bytes)).Simulates
      (.ofReset bank bytes) := by
  have before : (Machine.ofReset (RegisterFile.reset bank bank) bytes).Agrees
      { regs := fun r => bank (toRegIndex r), sr := datapathReset.sr, mem := bytes } := by
    refine ⟨fun port r visible => ?_, rfl, rfl⟩
    cases port with
    | a => rfl
    | b => rfl
    | zero =>
      rw [visible.2 rfl]
      exact zero.symm
  let M := Machine.ofReset (RegisterFile.reset bank bank) bytes
  have address : (M.booted 2).regs .a 0b10011#5 = 0 := by
    show (M.set 0b10011#5 0).regs .a 0b10011#5 = 0
    rw [Machine.regs_set, if_pos rfl]
  have other : ∀ port value, ((M.set 0b10011#5 0).set 0b01111#5 value).regs port 0b10100#5 =
      M.regs port 0b10100#5 := by
    intro port value
    rw [Machine.regs_set, if_neg (by decide), Machine.regs_set, if_neg (by decide)]
  refine ⟨rfl, ((before.hide (by decide)).set ?_).set ?_⟩
  · rw [address]
    rfl
  · show ((M.set 0b10011#5 0).set 0b01111#5 _).regs .a 0b10100#5 ^^^
      ((M.set 0b10011#5 0).set 0b01111#5 _).regs .b 0b10100#5 = 0
    rw [other, other]
    exact BitVec.xor_self

namespace CpuRun

variable {run : CpuRun} {memory : InstrMemory} {bytes : ByteMemory} {bank : Fin 21 → BitVec 32}

theorem arch_simulates (cleared : run.regs = RegisterFile.reset bank bank) (zero : bank 0 = 0)
    {n : ℕ} {i : Isa} (steps : (Isa.ofReset bank bytes).steps memory n = some i) :
    (run.arch memory bytes n).Simulates i := by
  induction n generalizing i with
  | zero =>
    rw [Isa.steps, Option.some.injEq] at steps
    subst steps
    rw [arch, cleared]
    exact simulates_start zero bytes
  | succ n ih =>
    rw [Isa.steps, Option.bind_eq_some_iff] at steps
    obtain ⟨before, earlier, next⟩ := steps
    rw [arch, Function.iterate_succ_apply']
    exact (Isa.step_simulated (ih earlier) next).2

/-- What the program sees is defined as long as it stays in the instruction set. -/
theorem carried_of_steps (cleared : run.regs = RegisterFile.reset bank bank) (zero : bank 0 = 0)
    {n : ℕ} {i : Isa} (steps : (Isa.ofReset bank bytes).steps memory (n + 1) = some i) :
    ∀ m ≤ n, Carried (wordAt memory (run.arch memory bytes m).flow.pc)
      (run.arch memory bytes m).flow.inSlot := by
  induction n generalizing i with
  | zero =>
    intro m hm
    obtain rfl := Nat.le_zero.mp hm
    rw [Isa.steps, Option.bind_eq_some_iff] at steps
    obtain ⟨before, earlier, next⟩ := steps
    exact (Isa.step_simulated (arch_simulates cleared zero earlier) next).1
  | succ n ih =>
    intro m hm
    rw [Isa.steps, Option.bind_eq_some_iff] at steps
    obtain ⟨before, earlier, next⟩ := steps
    rcases Nat.eq_or_lt_of_le hm with rfl | less
    · exact (Isa.step_simulated (arch_simulates cleared zero earlier) next).1
    · exact ih earlier m (Nat.lt_succ_iff.mp less)

/-- What a clock shows that takes up the instruction that a program is at: the instruction,
PC behind it, and what the program sees of the registers, SR and the memory. -/
structure TakesUp (run : CpuRun) (memory : InstrMemory) (bytes : ByteMemory) (t : ℕ) (i : Isa) :
    Prop where
  op : run.op t = DecodeCore.normalOp .rom predecodeRomAddr (wordAt memory i.flow.pc)
  pc : (run.state t).data.this.pc = i.flow.next
  shows : ∃ M : Machine, M.Agrees i.state ∧ run.Shows bytes t M

theorem takesUp_of_steps (cleared : run.regs = RegisterFile.reset bank bank) (zero : bank 0 = 0)
    (quiet : run.Undisturbed memory) (backed : run.Backed bytes) {t : ℕ}
    (on : run.GoesOn (run.slots t)) {i i' : Isa}
    (steps : (Isa.ofReset bank bytes).steps memory (run.taken t) = some i)
    (next : i.step memory = some i') (taken : run.selects t = true) :
    run.TakesUp memory bytes t i := by
  have further : (Isa.ofReset bank bytes).steps memory (run.taken t + 1) = some i' := by
    rw [Isa.steps, steps]
    exact next
  have carried := carried_of_steps cleared zero further
  have simulates : (run.arch memory bytes (run.taken t)).Simulates i :=
    arch_simulates cleared zero steps
  obtain ⟨flow, machine⟩ := simulates
  obtain ⟨h, state⟩ := boundary_of_selects cleared quiet backed on carried taken
  have op := h.op_eq quiet (carried _ le_rfl).toOrdinary
  have pc := h.front.pc
  rw [flow] at op pc
  refine ⟨op, pc, _, machine, ?_⟩
  rw [← state]
  exact shows_machine cleared

/-- The CPU carries out the program: from the reset on, for every stall and every latency
of the memories, a clock that takes up an instruction takes up the one that the program
is at, with PC behind it, and what the CPU then shows of the registers, SR and the memory
is what the program sees. -/
theorem implements (run : CpuRun) (memory : InstrMemory) (bytes : ByteMemory)
    (bank : Fin 21 → BitVec 32) (cleared : run.regs = RegisterFile.reset bank bank)
    (zero : bank 0 = 0) (quiet : run.Undisturbed memory) (backed : run.Backed bytes) (t : ℕ)
    (on : run.GoesOn (run.slots t)) {i i' : Isa}
    (steps : (Isa.ofReset bank bytes).steps memory (run.taken t) = some i)
    (next : i.step memory = some i') (taken : run.selects t = true) :
    run.op t = DecodeCore.normalOp .rom predecodeRomAddr (wordAt memory i.flow.pc) ∧
      (run.state t).data.this.pc = i.flow.next ∧
      ∃ M : Machine, M.Agrees i.state ∧ run.Shows bytes t M := by
  obtain ⟨op, pc, shows⟩ := takesUp_of_steps cleared zero quiet backed on steps next taken
  exact ⟨op, pc, shows⟩

/-! ### A sample -/

open Closed in
/-- Nine instructions of the sample by what they are to do: the call, the store and the
load, the branch with its slot, and the copy of PR at its target. -/
theorem steps_sample : ∃ i i', (Isa.ofReset (fun _ => 0) sampleBytes).steps sampleProgram 9 = some i ∧
    i.step sampleProgram = some i' ∧
    i.flow = { pc := 0x108, next := 0x10A, inSlot := false, link := none } ∧
    ∀ M : Machine, M.Agrees i.state →
      M.regs .a 1 = 6 ∧ M.regs .b 2 = 9 ∧ M.regs .a 3 = 0x106 ∧ M.mem 0x7ff = 6 := by
  have runs : (((Isa.ofReset (fun _ => 0) sampleBytes).steps sampleProgram 9).any fun i =>
      (i.step sampleProgram).isSome &&
        decide (i.flow = { pc := 0x108, next := 0x10A, inSlot := false, link := none } ∧
          i.state.regs 1 = 6 ∧ i.state.regs 2 = 9 ∧ i.state.regs 3 = 0x106 ∧
            i.state.mem 0x7ff = 6)) = true := by decide +kernel
  rw [Option.any_eq_true] at runs
  obtain ⟨i, steps, further⟩ := runs
  rw [Bool.and_eq_true, decide_eq_true_eq] at further
  obtain ⟨i', next⟩ := Option.isSome_iff_exists.mp further.1
  obtain ⟨flow, one, two, three, stored⟩ := further.2
  refine ⟨i, i', steps, next, flow, fun M agrees => ⟨?_, ?_, ?_, ?_⟩⟩
  · exact (agrees.a (by decide)).trans one
  · exact (agrees.b (by decide)).trans two
  · exact (agrees.a (by decide)).trans three
  · exact (congrFun agrees.mem _).trans stored

open Closed in
/-- The CPU takes up `NOP` at `0x108` with what the nine instructions are to leave. -/
theorem implements_sample : sampleRun.selects 18 = true ∧
    sampleRun.op 18 = DecodeCore.normalOp .rom predecodeRomAddr 0x0009 ∧
    (sampleRun.state 18).data.this.pc = 0x10A ∧
    ∃ M : Machine, (M.regs .a 1 = 6 ∧ M.regs .b 2 = 9 ∧ M.regs .a 3 = 0x106 ∧ M.mem 0x7ff = 6) ∧
      sampleRun.Shows sampleBytes 18 M := by
  have taken : sampleRun.selects 18 = true := by decide +kernel
  have few : sampleRun.taken 18 = 9 := by decide +kernel
  have word : wordAt sampleProgram 0x108 = 0x0009 := by decide
  obtain ⟨i, i', steps, next, flow, left⟩ := steps_sample
  rw [← few] at steps
  obtain ⟨op, pc, M, agrees, shows⟩ := implements sampleRun sampleProgram sampleBytes
    (fun _ => 0) rfl rfl undisturbed_run backed_run 18 ⟨30, by decide +kernel⟩ steps next taken
  rw [flow, word] at op
  rw [flow] at pc
  exact ⟨taken, op, pc, M, left M agrees, shows⟩

end CpuRun

end JCore
