import JCore.Core.Sequential

/-!
# Programs

The CPU carries out a program as if it took one instruction after the other: what the
instructions read, compute and write is what the microcode of each of them does on its
own, applied to what the instructions before it left.

## Main definitions

* `Arch`, `Arch.step`: the state of the architecture, and one instruction
* `Carried`: instructions whose microcode works on this state alone
* `CpuRun.Tracks`: how the CPU is on the way to such a state

## Main results

* `CpuRun.Tracks.step`: one clock
-/

namespace JCore

open Datapath DecodeTable

/-! ### The architecture -/

/-- The registers, SR and the memory between two instructions, with the next one. -/
@[ext] structure Arch where
  flow : Flow
  machine : Machine

/-- A call leaves the address behind its delay slot in PR. -/
def Machine.link (M : Machine) (b : Branch) (pc : BitVec 32) : Machine :=
  if b.links then { M with regs := M.regs.write (some (regPr, pc + 4)) } else M

namespace Arch

variable (memory : InstrMemory)

/-- The next instruction is carried out. -/
def step (a : Arch) : Arch where
  flow :=
    a.flow.step (wordAt memory a.flow.pc) a.machine.sr.t (a.machine.regs .a) (a.machine.regs .b)
  machine :=
    match Branch.ofCode (wordAt memory a.flow.pc) with
    | some b => a.machine.link b a.flow.pc
    | none =>
      a.machine.finish (wordAt memory a.flow.pc) a.flow.next 4
        (predecodeRomAddr (wordAt memory a.flow.pc))

end Arch

/-- The lines of an operation from the address on are sequential. -/
def sequentialFor : ℕ → BitVec 8 → Bool
  | 0, _ => false
  | n + 1, addr =>
    sequential (microcodeLine addr) && (incpc (microcodeLine addr) || sequentialFor n (addr + 1))

/-- The instruction is no system instruction, may stand where it does, and works on the
registers, SR and the memory alone. -/
structure Carried (code : BitVec 16) (inSlot : Bool) : Prop extends Ordinary code inSlot where
  sequential : Branch.ofCode code = none → sequentialFor 4 (predecodeRomAddr code) = true

theorem idle_of_jump (b : Branch) : idle (microcodeLine (b.startAddr + 1)) = true ∧
    (b.delayed = false → idle (microcodeLine (b.startAddr + 2)) = true) := by
  cases b <;> decide +kernel

/-- The first line of a branch writes PR or nothing. -/
theorem first_of_branch (b : Branch) : sequential (microcodeLine b.startAddr) = true ∧
    wrregW (microcodeLine b.startAddr) = false ∧ wrsrW (microcodeLine b.startAddr) = false ∧
    srSel (microcodeLine b.startAddr) = .selPrev ∧
    ∀ t, maIssue (microcodeLine b.startAddr) t = false := by
  cases b <;> decide +kernel

/-- What it does. -/
theorem exec_of_branch (b : Branch) (t : Bool) (code : BitVec 16) {pc counter : BitVec 32} (M : Machine)
    (linked : b.links = true → counter = pc + 4) :
    (Line.ofRom (microcodeLine b.startAddr) t).exec code counter M = M.link b pc := by
  obtain ⟨-, w, ws, sel, request⟩ := first_of_branch b
  have target : (Line.ofRom (microcodeLine b.startAddr) t).target code = none := by
    rw [Line.target]
    exact if_neg (Bool.eq_false_iff.mp w)
  have none : (Line.ofRom (microcodeLine b.startAddr) t).request code (M.values counter) = none := by
    rw [Line.request]
    exact if_neg (Bool.eq_false_iff.mp (request t))
  have prev : (Line.ofRom (microcodeLine b.startAddr) t).sr code (M.values counter) = M.sr := by
    have sel' : (Line.ofRom (microcodeLine b.startAddr) t).srSel = .selPrev := sel
    rw [Line.sr, sel']
    rfl
  have wrsr : (Line.ofRom (microcodeLine b.startAddr) t).wrsrW = false := ws
  rw [Line.exec, target, none, prev, wrsr, if_neg Bool.false_ne_true, Machine.link]
  have z : (Line.ofRom (microcodeLine b.startAddr) t).wrregZ = b.links := (branchLine b).wrregZ
  have pr : (Line.ofRom (microcodeLine b.startAddr) t).wrprPc = b.links := (branchLine b).wrprPc
  rw [Line.write, z, pr]
  cases links : b.links with
  | false => rfl
  | true =>
    have reg : (Line.ofRom (microcodeLine b.startAddr) t).regZ code = regPr :=
      regnumZ_of_links b links code
    rw [if_pos rfl, if_pos rfl, if_pos rfl, reg, ← linked links]
    rfl

namespace CpuRun

/-! ### On the way -/

/-- The CPU is on the way to the state `a`: it has reached it, or the lines that are left
lead there from what the lines before them left. -/
inductive Tracks (run : CpuRun) (memory : InstrMemory) (bytes : ByteMemory) (t : ℕ) (a : Arch) : Prop where
  | boundary (h : run.Boundary memory t a.flow) (state : run.machine bytes (run.slots t) = a.machine)
  | within (h : run.Within memory t a.flow) (n : ℕ)
      (sequential : sequentialFor n (run.state t).dec.core.op.addr = true)
      (state : (run.machine bytes (run.slots t)).finish (run.state t).dec.core.op.code a.flow.pc n
        (run.state t).dec.core.op.addr = a.machine)
  | waiting (b : Branch) (before : Flow) (h : run.Waiting memory t a.flow b before)
      (state : (run.machine bytes (run.slots t)).link b before.pc = a.machine)
  | jumping (b : Branch) (before : Flow) (n : ℕ) (h : run.Jumping memory t a.flow b before n)
      (state : run.machine bytes (run.slots t) = a.machine)
  | refilling (b : Branch) (h : run.Refilling memory t a.flow b)
      (state : run.machine bytes (run.slots t) = a.machine)

variable {run : CpuRun} {memory : InstrMemory} {bytes : ByteMemory} {t : ℕ} {a : Arch}

theorem Tracks.phase (h : run.Tracks memory bytes t a) : run.Phase memory t a.flow := by
  cases h with
  | boundary h => exact .boundary h
  | within h => exact .within h
  | waiting b before h => exact .waiting b before h
  | jumping b before n h => exact .jumping b before n h
  | refilling b h => exact .refilling b h

section Slots

variable {bankA bankB : Fin 21 → BitVec 32} (cleared : run.regs = RegisterFile.reset bankA bankB)
  (backed : run.Backed bytes) (quiet : run.Undisturbed memory) (slot : run.slot t = true)
  (on : run.GoesOn (run.slots t))
include cleared backed quiet slot on

/-- Behind a line that leaves PC to the fetch. -/
theorem tracks_of_plain {next : BitVec 32} {n : ℕ} (plain : Plain (run.op t).addr)
    (sequential : sequentialFor n (run.op t).addr = true)
    (phase : run.Boundary memory (t + 1) (Flow.start next) ∨
      run.Within memory (t + 1) (Flow.start next)) :
    run.Tracks memory bytes (t + 1)
      { flow := Flow.start next
        machine := (run.machine bytes (run.slots t)).finish (run.op t).code next n (run.op t).addr } := by
  have slots' := slots_succ_of_slot slot
  have op' := op_succ_of_slot slot
  have boundary' := boundary_succ_of_slot slot
  have disp : dispatch (microcodeLine (run.op t).addr) (run.tBcc t) =
      incpc (microcodeLine (run.op t).addr) := by
    have line := plain.line
    simp only [plainLine, Bool.and_eq_true, beq_iff_eq] at line
    cases run.tBcc t
    · exact line.2
    · exact line.1.2
  rw [disp] at boundary'
  obtain _ | n := n
  · exact absurd sequential Bool.false_ne_true
  rw [sequentialFor, Bool.and_eq_true] at sequential
  cases stall : run.stalled t with
  | true =>
    rw [stall, if_pos rfl] at op'
    rcases phase with h | h
    · rw [stall, h.boundary] at boundary'
      exact absurd boundary'.symm Bool.false_ne_true
    · refine .within h (n + 1) ?_ ?_
      · rw [op', sequentialFor, Bool.and_eq_true]
        exact sequential
      · rw [slots', op', machine_of_stalled slot stall on]
        rfl
  | false =>
    rw [stall, if_neg Bool.false_ne_true] at op'
    rw [stall, Bool.not_false, Bool.true_and] at boundary'
    have state := machine_of_issued cleared backed quiet.debug slot stall
      (sequential_of_test sequential.1) on
    rcases phase with h | h
    · rw [h.boundary] at boundary'
      refine .boundary h ?_
      rw [slots', state, h.front.pc]
      show _ = Machine.finish _ _ (n + 1) _ _
      rw [Machine.finish, ← boundary', if_pos rfl]
      rfl
    · rw [h.boundary] at boundary'
      rw [← boundary', Bool.false_or] at sequential
      refine .within h n ?_ ?_
      · rw [op']
        exact sequential.2
      · rw [slots', state, h.front.pc, op']
        show _ = Machine.finish _ _ (n + 1) _ _
        rw [Machine.finish, ← boundary', if_neg Bool.false_ne_true]
        rfl

/-- Behind the first line of a branch. -/
theorem tracks_of_branch {b : Branch} {f before : Flow} (addr : (run.op t).addr = b.startAddr)
    (sequence : before.next = before.pc + 2)
    (phase : run.Waiting memory (t + 1) f b before ∨
      run.Jumping memory (t + 1) f b before (run.slots t) ∨ run.Boundary memory (t + 1) f) :
    run.Tracks memory bytes (t + 1)
      { flow := f, machine := (run.machine bytes (run.slots t)).link b before.pc } := by
  have slots' := slots_succ_of_slot slot
  have op' := op_succ_of_slot slot
  have boundary' := boundary_succ_of_slot slot
  have behind : b.startAddr + 1 ≠ b.startAddr := by
    cases b <;> decide
  cases stall : run.stalled t with
  | true =>
    rw [stall, if_pos rfl] at op'
    rw [stall, Bool.not_true, Bool.false_and] at boundary'
    rcases phase with h | h | h
    · refine .waiting b before h ?_
      rw [slots', machine_of_stalled slot stall on]
    · have there := h.addr
      rw [op', addr] at there
      exact absurd there.symm behind
    · exact absurd (boundary'.symm.trans h.boundary) Bool.false_ne_true
  | false =>
    rw [stall, if_neg Bool.false_ne_true] at op'
    rw [stall, Bool.not_false, Bool.true_and, addr, (branchLine b).dispatch] at boundary'
    have state := machine_of_issued cleared backed quiet.debug slot stall
      (sequential_of_test (addr ▸ (first_of_branch b).1)) on
    rw [addr] at state
    rcases phase with h | h | h
    · have here := h.addr
      rw [op'] at here
      exact absurd ((congrArg (· + 1) addr).symm.trans here) behind
    · refine .jumping b before (run.slots t) h ?_
      rw [slots', state]
      refine exec_of_branch b _ _ _ fun links => ?_
      rw [h.front.pc, if_neg (delayed_of_links links).2, sequence, BitVec.add_assoc]
      rfl
    · rw [h.boundary] at boundary'
      refine .boundary h ?_
      rw [slots', state]
      refine exec_of_branch b _ _ _ fun links => ?_
      rw [taken_of_links links] at boundary'
      exact absurd boundary' (by decide)

/-- The instruction is taken up. -/
theorem tracks_of_boundary (h : run.Boundary memory t a.flow)
    (state : run.machine bytes (run.slots t) = a.machine)
    (carried : Carried (wordAt memory a.flow.pc) a.flow.inSlot) :
    run.Tracks memory bytes (t + 1) (a.step memory) := by
  have op := h.op_eq quiet carried.toOrdinary
  have start := start_of_instruction _ carried.instruction carried.notSystem
  have addr : (run.op t).addr = predecodeRomAddr (wordAt memory a.flow.pc) := by
    rw [op]
    rfl
  have code : (run.op t).code = wordAt memory a.flow.pc := by
    rw [op]
    rfl
  cases hb : Branch.ofCode (wordAt memory a.flow.pc) with
  | none =>
    rw [hb] at start
    have plain : Plain (run.op t).addr := addr ▸ start.1
    have next := tracks_of_plain (n := 4) cleared backed quiet slot on plain
      (addr ▸ carried.sequential hb) (plain_slot quiet slot plain h.front rfl h.wrpc)
    rw [state, code, addr] at next
    rw [Arch.step, Flow.step, hb]
    exact next
  | some b =>
    rw [hb] at start
    have notInSlot := carried.toOrdinary.not_inSlot hb
    have next := tracks_of_branch cleared backed quiet slot on (addr.trans start)
      (h.sequence notInSlot) (branch_slot quiet slot (addr.trans start) (h.sequence notInSlot) h.front
        rfl h.wrpc rfl)
    rw [state, code] at next
    rw [Arch.step, Flow.step, hb, ← state]
    rw [← state] at next
    exact next

end Slots

/-- Nothing happens in a clock without a slot. -/
theorem Tracks.wait (h : run.Tracks memory bytes t a) (quiet : run.Undisturbed memory)
    (ordinary : Ordinary (wordAt memory a.flow.pc) a.flow.inSlot) (slot : run.slot t = false) :
    run.Tracks memory bytes (t + 1) a := by
  have dec := dec_succ_of_not_slot slot
  have slots := slots_succ_of_not_slot slot
  cases h with
  | boundary h state => exact .boundary (h.wait quiet ordinary slot) (by rw [slots, state])
  | within h n sequential state =>
    exact .within (h.wait quiet slot) n (by rw [dec, sequential]) (by rw [slots, dec, state])
  | waiting b before h state => exact .waiting b before (h.wait quiet slot) (by rw [slots, state])
  | jumping b before n h state =>
    exact .jumping b before n (h.wait quiet slot) (by rw [slots, state])
  | refilling b h state => exact .refilling b (h.wait quiet slot) (by rw [slots, state])

/-- One clock. -/
theorem Tracks.step {bankA bankB : Fin 21 → BitVec 32}
    (cleared : run.regs = RegisterFile.reset bankA bankB) (backed : run.Backed bytes)
    (quiet : run.Undisturbed memory) (h : run.Tracks memory bytes t a)
    (on : run.GoesOn (run.slots t))
    (carried : Carried (wordAt memory a.flow.pc) a.flow.inSlot) :
    run.Tracks memory bytes (t + 1) (if run.selects t then a.step memory else a) := by
  cases slot : run.slot t with
  | false =>
    rw [selects, slot, Bool.false_and, if_neg Bool.false_ne_true]
    exact h.wait quiet carried.toOrdinary slot
  | true =>
    have slots := slots_succ_of_slot slot
    rw [selects, slot, Bool.true_and]
    cases h with
    | boundary h state =>
      rw [h.boundary, if_pos rfl]
      exact tracks_of_boundary cleared backed quiet slot on h state carried
    | within h n sequential state =>
      rw [h.boundary, if_neg Bool.false_ne_true]
      have here : run.op t = (run.state t).dec.core.op := op_of_not_boundary h.boundary
      have plain : Plain (run.op t).addr := here ▸ h.plain
      have next := tracks_of_plain cleared backed quiet slot on plain (here ▸ sequential)
        (plain_slot quiet slot plain h.front rfl h.wrpc)
      rw [here, state, ← h.flow] at next
      exact next
    | waiting b before h state =>
      rw [h.boundary, if_neg Bool.false_ne_true]
      have here : run.op t = (run.state t).dec.core.op := op_of_not_boundary h.boundary
      have next := tracks_of_branch cleared backed quiet slot on (here ▸ h.addr) h.sequence
        (branch_slot quiet slot (here ▸ h.addr) h.sequence h.front rfl h.wrpc (here ▸ h.flow))
      rw [state] at next
      exact next
    | jumping b before n h state =>
      rw [h.boundary, if_neg Bool.false_ne_true]
      have here : run.op t = (run.state t).dec.core.op := op_of_not_boundary h.boundary
      have line : idle (microcodeLine (run.op t).addr) = true := by
        rw [here, h.addr]
        exact (idle_of_jump b).1
      have state' : run.machine bytes (run.slots t + 1) = a.machine :=
        (machine_of_idle slot line on).trans state
      rw [← slots] at state'
      rcases jump_slot cleared quiet slot h with next | next
      · exact .boundary next state'
      · exact .refilling b next state'
    | refilling b h state =>
      rw [h.boundary, if_neg Bool.false_ne_true]
      have here : run.op t = (run.state t).dec.core.op := op_of_not_boundary h.boundary
      have line : idle (microcodeLine (run.op t).addr) = true := by
        rw [here, h.addr]
        exact (idle_of_jump b).2 h.delayed
      have state' : run.machine bytes (run.slots t + 1) = a.machine :=
        (machine_of_idle slot line on).trans state
      rw [← slots] at state'
      exact .boundary (refill_slot quiet slot h) state'

end CpuRun

end JCore
